/-!
# Numerals

Numbers are written in decimal without padding, a minus sign standing before the digits of a
negative number, and code points in hexadecimal with a fixed number of digits.

## Main definitions

- `digits` — the decimal digits of a natural number
- `decimal` — the decimal numeral of an integer
- `hexDigits` — the hexadecimal digits of a number, to a fixed width

## Main statements

- `digits_injective` — different numbers have different digits
- `decimal_injective` — different integers have different numerals
-/

namespace GrammarNotation.Text

/-- The decimal digits of a natural number, the most significant first. -/
def digits (n : Nat) : List Char :=
  if n < 10 then [Nat.digitChar n] else digits (n / 10) ++ [Nat.digitChar (n % 10)]
termination_by n

/-- The decimal numeral of an integer. -/
def decimal : Int → String
  | .ofNat n => String.ofList (digits n)
  | .negSucc n => String.ofList ('-' :: digits (n + 1))

/-- The last `width` hexadecimal digits of a number, in lower case. -/
def hexDigits : (width : Nat) → Nat → List Char
  | 0, _ => []
  | width + 1, n => hexDigits width (n / 16) ++ [Nat.digitChar (n % 16)]

/-! ### Laws -/

theorem digitChar_injective_of_lt {m n : Nat} (hm : m < 10) (hn : n < 10)
    (h : Nat.digitChar m = Nat.digitChar n) : m = n := by
  have key : ∀ i : Fin 10, ∀ j : Fin 10,
      Nat.digitChar i.val = Nat.digitChar j.val → i.val = j.val := by decide
  exact key ⟨m, hm⟩ ⟨n, hn⟩ h

theorem digits_of_lt {n : Nat} (h : n < 10) : digits n = [Nat.digitChar n] := by
  rw [digits, if_pos h]

theorem digits_of_le {n : Nat} (h : 10 ≤ n) :
    digits n = digits (n / 10) ++ [Nat.digitChar (n % 10)] := by
  rw [digits, if_neg (Nat.not_lt.2 h)]

theorem digits_ne_nil (n : Nat) : digits n ≠ [] := by
  rcases Nat.lt_or_ge n 10 with h | h
  · simp [digits_of_lt h]
  · simp [digits_of_le h]

theorem digits_injective {m n : Nat} (h : digits m = digits n) : m = n := by
  induction m using Nat.strongRecOn generalizing n with
  | _ m ih =>
    rcases Nat.lt_or_ge m 10 with hm | hm <;> rcases Nat.lt_or_ge n 10 with hn | hn
    · rw [digits_of_lt hm, digits_of_lt hn] at h
      exact digitChar_injective_of_lt hm hn (List.singleton_inj.1 h)
    · rw [digits_of_lt hm, digits_of_le hn] at h
      have front := List.length_pos_iff.2 (digits_ne_nil (n / 10))
      have length := congrArg List.length h
      rw [List.length_append, List.length_singleton, List.length_singleton] at length
      omega
    · rw [digits_of_le hm, digits_of_lt hn] at h
      have front := List.length_pos_iff.2 (digits_ne_nil (m / 10))
      have length := congrArg List.length h
      rw [List.length_append, List.length_singleton, List.length_singleton] at length
      omega
    · rw [digits_of_le hm, digits_of_le hn] at h
      obtain ⟨front, last⟩ := List.append_inj' h rfl
      have quotient := ih (m / 10) (by omega) front
      have remainder := digitChar_injective_of_lt (Nat.mod_lt m (by decide))
        (Nat.mod_lt n (by decide)) (List.singleton_inj.1 last)
      omega

theorem isDigit_of_mem_digits {n : Nat} {c : Char} (h : c ∈ digits n) : c.isDigit = true := by
  have key : ∀ i : Fin 10, (Nat.digitChar i.val).isDigit = true := by decide
  induction n using Nat.strongRecOn with
  | _ n ih =>
    rcases Nat.lt_or_ge n 10 with hn | hn
    · rw [digits_of_lt hn, List.mem_singleton] at h
      exact h ▸ key ⟨n, hn⟩
    · rw [digits_of_le hn, List.mem_append, List.mem_singleton] at h
      rcases h with h | h
      · exact ih (n / 10) (by omega) h
      · exact h ▸ key ⟨n % 10, Nat.mod_lt n (by decide)⟩

theorem isDigit_of_mem_decimal {i : Int} {c : Char} (h : c ∈ (decimal i).toList) :
    c = '-' ∨ c.isDigit = true := by
  cases i with
  | ofNat n =>
    rw [decimal, String.toList_ofList] at h
    exact .inr (isDigit_of_mem_digits h)
  | negSucc n =>
    rw [decimal, String.toList_ofList, List.mem_cons] at h
    exact h.imp_right isDigit_of_mem_digits

theorem decimal_injective {a b : Int} (h : decimal a = decimal b) : a = b := by
  cases a with
  | ofNat m =>
    cases b with
    | ofNat n => exact congrArg Int.ofNat (digits_injective (String.ofList_injective h))
    | negSucc n =>
      have h := String.ofList_injective h
      have : '-'.isDigit = true := isDigit_of_mem_digits (n := m) (by simp [h])
      exact absurd this (by decide)
  | negSucc m =>
    cases b with
    | ofNat n =>
      have h := String.ofList_injective h
      have : '-'.isDigit = true := isDigit_of_mem_digits (n := n) (by simp [← h])
      exact absurd this (by decide)
    | negSucc n =>
      have h := digits_injective (List.cons.inj (String.ofList_injective h)).2
      exact congrArg Int.negSucc (Nat.succ.inj h)

end GrammarNotation.Text
