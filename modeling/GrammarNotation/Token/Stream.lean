import GrammarNotation.Token.Basic
import GrammarNotation.Text.Decimal

/-!
# Streams of tokens

A stream is a list of tokens with a place in it up to which they have been taken.

## Main definitions

- `TokenStream` — the tokens taken, latest first, and those ahead
- `TokenStream.next?` — take the next token
- `TokenStream.peek?` — look at a token ahead
- `TokenStream.drop` — take the next token, if there is one, without looking at it
- `TokenStream.advanceTo` — take all tokens in front of a given rest
-/

namespace GrammarNotation

/-- A list of tokens with a place in it. -/
structure TokenStream where
  /-- The tokens taken so far, latest first. -/
  behind : List Token
  ahead : List Token

/-- A distance at which a stream cannot be looked at, because it is not at least one. -/
structure DistanceError where
  distance : Int
  deriving DecidableEq

/-- The message of a distance error. -/
def DistanceError.message (e : DistanceError) : String :=
  "peek distance must be at least 1, got " ++ Text.decimal e.distance

namespace TokenStream

/-- A stream of which nothing has been taken. -/
def ofList (tokens : List Token) : TokenStream := ⟨[], tokens⟩

/-- All tokens of a stream, taken or not. -/
def toList (s : TokenStream) : List Token := s.behind.reverse ++ s.ahead

/-- How many tokens have been taken. -/
def taken (s : TokenStream) : Nat := s.behind.length

/-- The token taken last. -/
def last? (s : TokenStream) : Option Token := s.behind.head?

/-- The next token and the stream after it. -/
def next? (s : TokenStream) : Option (Token × TokenStream) :=
  match s.ahead with
  | [] => none
  | t :: ahead => some (t, ⟨t :: s.behind, ahead⟩)

/-- The token `distance` places ahead, the next one being at distance 1. -/
def peek? (s : TokenStream) (distance : Int) : Except DistanceError (Option Token) :=
  if distance < 1 then .error ⟨distance⟩ else .ok s.ahead[(distance - 1).toNat]?

/-- The stream after the next token, or the same stream at its end. -/
def drop (s : TokenStream) : TokenStream :=
  s.next?.elim s Prod.snd

/-- The stream from which all tokens but those of `rest`, which stand at its end, are taken. -/
def advanceTo (s : TokenStream) (rest : List Token) : TokenStream :=
  ⟨(s.ahead.take (s.ahead.length - rest.length)).reverse ++ s.behind, rest⟩

/-- The stream after its last token. -/
def finish (s : TokenStream) : TokenStream := s.advanceTo []

@[simp]
theorem toList_ofList (tokens : List Token) : (ofList tokens).toList = tokens := by
  simp [ofList, toList]

theorem toList_of_next? {s s' : TokenStream} {t : Token} (h : s.next? = some (t, s')) :
    s'.toList = s.toList ∧ s.ahead = t :: s'.ahead ∧ s'.last? = some t := by
  obtain ⟨behind, ahead⟩ := s
  cases ahead with
  | nil => simp [next?] at h
  | cons u ahead =>
    obtain ⟨rfl, rfl⟩ := Prod.mk.inj (Option.some.inj h)
    simp [toList, last?]

@[simp]
theorem toList_drop (s : TokenStream) : s.drop.toList = s.toList := by
  obtain ⟨behind, ahead⟩ := s
  cases ahead <;> simp [drop, next?, toList]

/-- Taking tokens up to a rest puts those in front of it behind, latest first. -/
theorem behind_advanceTo {s : TokenStream} {front rest : List Token} (h : s.ahead = front ++ rest) :
    (s.advanceTo rest).behind = front.reverse ++ s.behind := by
  simp [advanceTo, h]

/-- Taking tokens up to a rest keeps the tokens of the stream. -/
theorem toList_advanceTo {s : TokenStream} {rest : List Token} (h : rest <:+ s.ahead) :
    (s.advanceTo rest).toList = s.toList := by
  obtain ⟨front, eq⟩ := h
  rw [toList, toList, behind_advanceTo eq.symm, ← eq]
  simp [advanceTo]

theorem taken_advanceTo {s : TokenStream} {front rest : List Token} (h : s.ahead = front ++ rest) :
    (s.advanceTo rest).taken = s.taken + front.length := by
  rw [taken, taken, behind_advanceTo h, List.length_append, List.length_reverse, Nat.add_comm]

theorem taken_le_length (s : TokenStream) : s.taken ≤ s.toList.length := by
  simp [taken, toList]

end TokenStream

end GrammarNotation
