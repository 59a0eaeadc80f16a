import GrammarNotation.Proofs.Session.Replies
import GrammarNotation.Session.Basic

/-!
# Journals of sessions

A journal follows a session, in which any number of parsers may share any number of counters. It
keeps the parsers that are no longer at work, what was handed out, and which counters were used in
vain. So it has all the numbers that ever came from a counter and were not lost with a section that
was given up.

## Main definitions

- `Journal` — a session and its past
- `Journal.record` — what is kept of a directive
- `Journal.numbers` — the numbers that came from a counter

## Main statements

- `Journal.session_ofDirectives` — a journal follows its session
- `Journal.Sound.record` — directives keep the accounts of all counters in order
- `Journal.numbers_ofDirectives` — numbers are never used twice, and none is left out where nothing
  fails
-/

namespace GrammarNotation

open GrammarNotation.Tree

/-! ### What is kept -/

/-- The counter that a directive uses. -/
def Session.counterOf? (s : Session) : Directive → Option Nat
  | .draw label _ => s.counters.lookup label
  | .ask parser _ => (s.worker? parser).map (·.counter)
  | _ => none

/-- The name under which a directive sets up a parser. -/
def Directive.opened? : Directive → Option String
  | .openText parser _ _ | .openFile parser _ _ => some parser
  | _ => none

/-- A session and its past. -/
structure Journal where
  session : Session
  /-- The parsers whose names were given to other ones. -/
  retired : List Worker := []
  /-- The numbers that were handed out, each time with the counter that they come from. -/
  handedOut : List (Nat × List Int) := []
  /-- The counters that were used in vain. -/
  failed : List Nat := []

/-- The numbers that a list of accounts has for a counter. -/
def numbersUnder (counter : Nat) (accounts : List (Nat × List Int)) : List Int :=
  (accounts.filter (·.1 == counter)).flatMap (·.2)

/-- The numbers in the tree of a parser, with its counter. -/
def Worker.account (w : Worker) : Nat × List Int := (w.counter, w.parser.tree.numbers)

namespace Journal

/-- The journal of a session in which nothing was done yet. -/
def start (files : Directory) : Journal := { session := { files } }

/-- Follows a directive. -/
def record (j : Journal) (d : Directive) : Journal :=
  let step := j.session.run d
  let counter := (j.session.counterOf? d).toList
  match step.result with
  | .ok reply =>
    { j with
      session := step.session
      retired := j.retired ++ (d.opened?.bind j.session.worker?).toList
      handedOut := j.handedOut ++ counter.map (·, reply.numbers) }
  | .error _ => { j with session := step.session, failed := j.failed ++ counter }

/-- The journal of a session in which one thing was done after the other. -/
def ofDirectives (files : Directory) (ds : List Directive) : Journal :=
  ds.foldl record (start files)

theorem session_record (j : Journal) (d : Directive) :
    (j.record d).session = (j.session.run d).session := by
  rw [record]
  split <;> rfl

/-- A journal changes nothing in the session that it follows. -/
theorem session_ofDirectives (files : Directory) (ds : List Directive) :
    (ofDirectives files ds).session = ds.foldl (fun s d => (s.run d).session) { files } :=
  (List.foldl_hom session fun j d => (session_record j d).symm).symm

/-- The parsers that are or were at work. -/
def workers (j : Journal) : List Worker := j.session.workers.map (·.2) ++ j.retired

/-- The numbers in all trees, and those that were handed out. -/
def accounts (j : Journal) : List (Nat × List Int) :=
  j.workers.map Worker.account ++ j.handedOut

/-- The numbers that came from a counter. -/
def numbers (j : Journal) (counter : Nat) : List Int := numbersUnder counter j.accounts

end Journal

section Accounts

variable {counter : Nat} {accounts more : List (Nat × List Int)}

@[simp]
theorem numbersUnder_append :
    numbersUnder counter (accounts ++ more) =
      numbersUnder counter accounts ++ numbersUnder counter more := by
  simp [numbersUnder]

theorem numbersUnder_cons (account : Nat × List Int) :
    numbersUnder counter (account :: accounts) =
      (if account.1 = counter then account.2 else []) ++ numbersUnder counter accounts := by
  by_cases same : account.1 = counter <;> simp [numbersUnder, same]

/-- Numbers are entered in two places, or they are entered together. -/
theorem numbersUnder_enter (counter used : Nat) (old attached handed others : List Int)
    (accounts : List (Nat × List Int)) :
    (numbersUnder counter ((used, old ++ attached) :: accounts) ++
        (others ++ numbersUnder counter [(used, handed)])).Perm
      (numbersUnder counter ((used, old) :: accounts) ++ others ++
        numbersUnder counter [(used, attached ++ handed)]) := by
  simp only [numbersUnder_cons]
  refine List.perm_iff_count.2 ?_
  intro n
  by_cases same : used = counter
  · simp only [if_pos same, List.count_append]
    omega
  · simp only [if_neg same, List.count_append]
    omega

theorem numbersUnder_perm (counter : Nat) (h : accounts.Perm more) :
    (numbersUnder counter accounts).Perm (numbersUnder counter more) :=
  (h.filter _).flatMap_right _

end Accounts

/-! ### Sessions -/

/-- The entry that is found under a name, and the entries under the other names, are all. -/
theorem map_snd_perm_lookup {α : Type} {entries : List (String × α)}
    (nodup : (entries.map (·.1)).Nodup) (name : String) :
    (entries.map (·.2)).Perm
      ((entries.lookup name).toList ++ (entries.filter (·.1 != name)).map (·.2)) := by
  induction entries with
  | nil => exact .nil
  | cons entry entries ih =>
    obtain ⟨key, a⟩ := entry
    obtain ⟨new, nodup⟩ := List.nodup_cons.1 nodup
    by_cases same : name = key
    · subst same
      have others : entries.filter (·.1 != name) = entries := by
        rw [List.filter_eq_self]
        rintro ⟨other, b⟩ mem
        have differ : other ≠ name := by
          rintro rfl
          exact new (List.mem_map.2 ⟨_, mem, rfl⟩)
        simpa using differ
      simp [others]
    · have missed : ((key, a) :: entries).lookup name = entries.lookup name := by
        rw [List.lookup_cons, beq_eq_false_iff_ne.2 same]
      have kept : ((key, a) :: entries).filter (·.1 != name) =
          (key, a) :: entries.filter (·.1 != name) :=
        List.filter_cons_of_pos (by simpa using Ne.symm same)
      rw [missed, kept]
      exact (List.Perm.cons a (ih nodup)).trans List.perm_middle.symm

/-- Names stand for one parser each, and all counters in use are there. -/
structure Session.IsSound (s : Session) : Prop where
  names : (s.workers.map (·.1)).Nodup
  labels : ∀ named ∈ s.counters, named.2 < s.counts.length
  workers : ∀ named ∈ s.workers,
    named.2.counter < s.counts.length ∧ numbersAll named.2.parser.scratch = []

namespace Session

variable {s : Session} {name : String} {w : Worker} {counter : Nat}

/-- The session with the last number of a counter. -/
def setCount (s : Session) (counter last : Nat) : Session :=
  { s with counts := s.counts.set counter last }

theorem count_addCounter (s : Session) (counter : Nat) :
    s.addCounter.count counter = s.count counter := by
  simp only [count, addCounter]
  rcases Nat.lt_trichotomy counter s.counts.length with lt | rfl | gt
  · rw [List.getElem?_append_left lt]
  · simp
  · rw [List.getElem?_eq_none (by simp; omega), List.getElem?_eq_none (by omega)]

theorem count_setCount (h : counter < s.counts.length) (last other : Nat) :
    (s.setCount counter last).count other = if other = counter then last else s.count other := by
  simp only [count, setCount]
  split
  · next same => simp [same, h]
  · next differ => rw [List.getElem?_set_ne (Ne.symm differ)]

theorem mem_of_lookup {α : Type} {entries : List (String × α)} {a : α}
    (h : entries.lookup name = some a) : (name, a) ∈ entries := by
  obtain ⟨front, back, eq, -⟩ := List.lookup_eq_some_iff.1 h
  simp [eq]

namespace IsSound

theorem addCounter (h : s.IsSound) : s.addCounter.IsSound := by
  have grows : s.counts.length < s.addCounter.counts.length := by simp [Session.addCounter]
  refine ⟨h.names, fun named mem => Nat.lt_trans (h.labels named mem) grows, ?_⟩
  intro named mem
  exact ⟨Nat.lt_trans (h.workers named mem).1 grows, (h.workers named mem).2⟩

theorem setCount (h : s.IsSound) (counter last : Nat) : (s.setCount counter last).IsSound := by
  have same : (s.setCount counter last).counts.length = s.counts.length := List.length_set ..
  refine ⟨h.names, ?_, ?_⟩
  · rw [same]
    exact h.labels
  · rw [same]
    exact h.workers

theorem setWorker (h : s.IsSound) (name : String) (bound : w.counter < s.counts.length)
    (free : numbersAll w.parser.scratch = []) : (s.setWorker name w).IsSound := by
  refine ⟨?_, h.labels, ?_⟩
  · have others : ((s.workers.filter (·.1 != name)).map (·.1)).Nodup :=
      h.names.sublist (List.filter_sublist.map _)
    refine List.nodup_cons.2 ⟨?_, others⟩
    simp
  · intro named mem
    rcases List.mem_cons.1 mem with rfl | mem
    · exact ⟨bound, free⟩
    · exact h.workers named (List.mem_filter.1 mem).1

end IsSound

/-- The parser of a name, and the parsers that stay when another one gets the name. -/
theorem IsSound.exists_others (h : s.IsSound) (name : String) :
    ∃ others, (s.workers.map (·.2)).Perm ((s.worker? name).toList ++ others) ∧
      ∀ w, (s.setWorker name w).workers.map (·.2) = w :: others :=
  ⟨_, map_snd_perm_lookup h.names name, fun _ => rfl⟩

/-- A parser is set up with an empty tree, or nothing is done. -/
theorem IsSound.openSource_cases (h : s.IsSound) (name source : String) (setup : Setup) :
    (∃ e, s.openSource name source setup = { session := s, result := .error e }) ∨
      ∃ (s' : Session) (w : Worker), s'.IsSound ∧ s'.workers = s.workers ∧
        (∀ counter, s'.count counter = s.count counter) ∧
        w.counter < s'.counts.length ∧ w.parser.children = [] ∧ w.parser.scratch = [] ∧
        ∃ n notices, s.openSource name source setup =
          { session := s'.setWorker name w, result := .ok (.count n), notices } := by
  have empty (parser : Parser × List Notice)
      (new : parser.1.children = [] ∧ parser.1.scratch = []) :
      (if setup.keepComments then parser.1.keepComments else (parser.1, [])).1.children = [] ∧
        (if setup.keepComments then parser.1.keepComments else (parser.1, [])).1.scratch = [] := by
    split
    · exact new
    · exact new
  obtain ⟨children, scratch⟩ := empty (Parser.ofSource setup.settings source) ⟨rfl, rfl⟩
  rw [openSource]
  cases own : setup.counter with
  | none =>
    right
    have new : s.counts.length < s.addCounter.counts.length := by simp [Session.addCounter]
    exact ⟨s.addCounter, ⟨_, s.counts.length, false⟩, h.addCounter, rfl, s.count_addCounter, new,
      children, scratch, _, _, rfl⟩
  | some label =>
    cases found : s.counters.lookup label with
    | none =>
      left
      simp only [found]
      exact ⟨_, rfl⟩
    | some counter =>
      right
      simp only [found]
      exact ⟨s, ⟨_, counter, false⟩, h, rfl, fun _ => rfl, h.labels _ (mem_of_lookup found),
        children, scratch, _, _, rfl⟩

end Session

/-! ### Accounts in order -/

namespace Journal

/-- What a counter yielded so far was kept, or it was lost, which happens only where something
failed. -/
def Balanced (j : Journal) (counter : Nat) : Prop :=
  ∃ lost, (j.numbers counter ++ lost).Perm (numbersBetween 0 (j.session.count counter)) ∧
    (counter ∉ j.failed → lost = [])

/-- **The accounts are in order**: those of all counters are balanced, and each tree has its numbers
in increasing order. -/
structure Sound (j : Journal) : Prop where
  session : j.session.IsSound
  increasing : ∀ w ∈ j.workers, w.parser.tree.numbers.Pairwise (· < ·)
  balanced : ∀ counter, j.Balanced counter

variable {j j' : Journal}

theorem numbers_eq (j : Journal) (counter : Nat) :
    j.numbers counter = numbersUnder counter (j.workers.map Worker.account) ++
      numbersUnder counter j.handedOut := by
  rw [numbers, accounts, numbersUnder_append]

theorem mem_accounts_of_mem_workers {w : Worker} (mem : w ∈ j.workers) : w.account ∈ j.accounts :=
  List.mem_append_left _ (List.mem_map_of_mem mem)

/-- All numbers of a counter are among those that it yielded. -/
theorem Sound.mem_between (h : j.Sound) {counter : Nat} {n : Int} (mem : n ∈ j.numbers counter) :
    n ∈ numbersBetween 0 (j.session.count counter) := by
  obtain ⟨lost, perm, -⟩ := h.balanced counter
  exact perm.subset (List.mem_append_left _ mem)

theorem Sound.mem_between_of_worker (h : j.Sound) {w : Worker} (mem : w ∈ j.workers) {n : Int}
    (number : n ∈ w.parser.tree.numbers) :
    n ∈ numbersBetween 0 (j.session.count w.counter) := by
  have own : w.account ∈ j.accounts.filter (·.1 == w.counter) :=
    List.mem_filter.2 ⟨mem_accounts_of_mem_workers mem, beq_self_eq_true w.counter⟩
  exact h.mem_between (List.mem_flatMap.2 ⟨w.account, own, number⟩)

/-- Numbers that are drawn after those of a tree are greater. -/
theorem Sound.increasing_append (h : j.Sound) {w : Worker} (mem : w ∈ j.workers) {last : Nat}
    {new others : List Int}
    (drawn : new ++ others = numbersBetween (j.session.count w.counter) last) :
    (w.parser.tree.numbers ++ new).Pairwise (· < ·) := by
  have increasing : (new ++ others).Pairwise (· < ·) := drawn ▸ pairwise_numbersBetween
  refine List.pairwise_append.2 ⟨h.increasing w mem, (List.pairwise_append.1 increasing).1, ?_⟩
  intro a old b mem_new
  have mem_drawn : b ∈ numbersBetween (j.session.count w.counter) last :=
    drawn ▸ List.mem_append_left others mem_new
  have upto := (mem_numbersBetween.1 (h.mem_between_of_worker mem old)).2
  have beyond := (mem_numbersBetween.1 mem_drawn).1
  omega

/-- Accounts that stay the same are balanced where the counter stays the same. -/
theorem Balanced.of_same {counter : Nat} (h : j.Balanced counter)
    (count : j'.session.count counter = j.session.count counter)
    (same : (j'.numbers counter).Perm (j.numbers counter))
    (failed : counter ∉ j'.failed → counter ∉ j.failed) : j'.Balanced counter := by
  obtain ⟨lost, perm, closed⟩ := h
  rw [Balanced, count]
  exact ⟨lost, (same.append_right lost).trans perm, closed ∘ failed⟩

/-- Accounts are balanced if the numbers that a counter yields are entered, but for those that are
lost. -/
theorem Balanced.of_use {counter : Nat} (h : j.Balanced counter) {new lost : List Int}
    (le : j.session.count counter ≤ j'.session.count counter)
    (drawn : new ++ lost =
      numbersBetween (j.session.count counter) (j'.session.count counter))
    (entered : (j'.numbers counter).Perm (j.numbers counter ++ new))
    (failed : counter ∉ j'.failed → counter ∉ j.failed)
    (closed : counter ∉ j'.failed → lost = []) : j'.Balanced counter := by
  obtain ⟨before, perm, closedBefore⟩ := h
  refine ⟨before ++ lost, ?_, ?_⟩
  · have apart : (j'.numbers counter ++ (before ++ lost)).Perm
        ((j.numbers counter ++ before) ++ (new ++ lost)) := by
      refine (entered.append_right _).trans (List.perm_iff_count.2 ?_)
      intro n
      simp only [List.count_append]
      omega
    rw [drawn] at apart
    rw [← numbersBetween_append (Nat.zero_le _) le]
    exact apart.trans (perm.append_right _)
  · intro ok
    rw [closedBefore (failed ok), closed ok]
    rfl

/-- One counter is used, and nothing else changes in the accounts. -/
theorem Sound.balanced_of_use (h : j.Sound) {used last : Nat} {new lost : List Int}
    (count : ∀ counter,
      j'.session.count counter = if counter = used then last else j.session.count counter)
    (le : j.session.count used ≤ last)
    (drawn : new ++ lost = numbersBetween (j.session.count used) last)
    (entered : ∀ counter,
      (j'.numbers counter).Perm (j.numbers counter ++ numbersUnder counter [(used, new)]))
    (failed : ∀ counter, counter ∉ j'.failed → counter ∉ j.failed)
    (closed : used ∉ j'.failed → lost = []) (counter : Nat) : j'.Balanced counter := by
  have count := count counter
  have entered := entered counter
  rw [numbersUnder_cons] at entered
  by_cases same : counter = used
  · subst same
    rw [if_pos rfl] at count entered
    rw [← count] at le drawn
    refine (h.balanced counter).of_use le drawn ?_ (failed counter) closed
    simpa [numbersUnder] using entered
  · rw [if_neg same] at count
    rw [if_neg (Ne.symm same)] at entered
    refine (h.balanced counter).of_same count ?_ (failed counter)
    simpa [numbersUnder] using entered

/-! ### Directives -/

section Record

variable {d : Directive}

theorem record_of_ok {reply : Reply} (ok : (j.session.run d).result = .ok reply) :
    j.record d = { j with
      session := (j.session.run d).session
      retired := j.retired ++ (d.opened?.bind j.session.worker?).toList
      handedOut := j.handedOut ++ (j.session.counterOf? d).toList.map (·, reply.numbers) } := by
  simp only [record, ok]

theorem record_of_error {e : DirectiveError} (failed : (j.session.run d).result = .error e) :
    j.record d = { j with
      session := (j.session.run d).session
      failed := j.failed ++ (j.session.counterOf? d).toList } := by
  simp only [record, failed]

/-- What fails without the use of a counter leaves no trace. -/
theorem record_eq_self {e : DirectiveError} (failed : (j.session.run d).result = .error e)
    (same : (j.session.run d).session = j.session) (unused : j.session.counterOf? d = none) :
    j.record d = j := by
  rw [record_of_error failed, same, unused, Option.toList_none, List.append_nil]

end Record

theorem Sound.makeCounter (h : j.Sound) (label : String) :
    (j.record (.makeCounter label)).Sound := by
  have eq : j.record (.makeCounter label) = { j with
      session := { j.session.addCounter with
        counters := (label, j.session.counts.length) :: j.session.counters } } := by
    have ok : (j.session.run (.makeCounter label)).result = .ok .nothing := rfl
    rw [record_of_ok ok]
    simp [Session.run, Session.counterOf?, Directive.opened?]
  rw [eq]
  have added := h.session.addCounter
  refine ⟨⟨added.names, ?_, added.workers⟩, h.increasing, ?_⟩
  · have new : j.session.counts.length < j.session.addCounter.counts.length := by
      simp [Session.addCounter]
    exact List.forall_mem_cons.2 ⟨new, added.labels⟩
  · intro counter
    exact (h.balanced counter).of_same (j.session.count_addCounter counter) (.refl _) (fun ok => ok)

theorem Sound.draw (h : j.Sound) (label : String) (times : Nat) :
    (j.record (.draw label times)).Sound := by
  cases found : j.session.counters.lookup label with
  | none =>
    have failed : (j.session.run (.draw label times)) =
        { session := j.session, result := .error (.unknown label) } := by rw [Session.run, found]
    rw [record_eq_self (congrArg Step.result failed) (congrArg Step.session failed) found]
    exact h
  | some counter =>
    have bound := h.session.labels _ (Session.mem_of_lookup found)
    have drawn : (Reply.counts (List.range' (j.session.count counter + 1) times)).numbers =
        numbersBetween (j.session.count counter) (j.session.count counter + times) := by
      rw [Reply.numbers, numbersBetween, Nat.add_sub_cancel_left]
    have eq : j.record (.draw label times) = { j with
        session := j.session.setCount counter (j.session.count counter + times)
        handedOut := j.handedOut ++ [(counter,
          numbersBetween (j.session.count counter) (j.session.count counter + times))] } := by
      have run : j.session.run (.draw label times) =
          { session := j.session.setCount counter (j.session.count counter + times)
            result := .ok (.counts (List.range' (j.session.count counter + 1) times)) } := by
        rw [Session.run, found]
        rfl
      have used : j.session.counterOf? (.draw label times) = some counter := found
      rw [record_of_ok (congrArg Step.result run), run, drawn, used]
      simp [Directive.opened?]
    rw [eq]
    refine ⟨h.session.setCount _ _, h.increasing, ?_⟩
    refine h.balanced_of_use (Session.count_setCount bound _) (Nat.le_add_right _ _)
      (List.append_nil _) ?_ (fun _ ok => ok) (fun _ => rfl)
    intro other
    rw [numbers_eq, numbers_eq, numbersUnder_append, ← List.append_assoc]
    exact .refl _

theorem Sound.opens (h : j.Sound) {d : Directive} {name source : String} {setup : Setup}
    (opened : d.opened? = some name) (unused : j.session.counterOf? d = none)
    (run : j.session.run d = j.session.openSource name source setup) : (j.record d).Sound := by
  rcases h.session.openSource_cases name source setup with
    ⟨e, eq⟩ | ⟨s', w, sound, workers_eq, count, bound, children, scratch, n, notices, eq⟩
  · have failed := run.trans eq
    rw [record_eq_self (congrArg Step.result failed) (congrArg Step.session failed) unused]
    exact h
  have eq' : j.record d = { j with
      session := s'.setWorker name w
      retired := j.retired ++ (j.session.worker? name).toList } := by
    rw [record_of_ok (congrArg Step.result (run.trans eq)), run, eq, unused, opened]
    simp
  have none : w.parser.tree.numbers = [] := by
    rw [Parser.numbers_tree, children, numbersAll_nil]
  -- The parser that had the name before moves to those that are no longer at work.
  obtain ⟨others, before, after⟩ := sound.exists_others name
  have all : (j.record d).workers.Perm (w :: j.workers) := by
    have same : s'.worker? name = j.session.worker? name := by
      rw [Session.worker?, workers_eq, Session.worker?]
    rw [workers_eq, same] at before
    rw [eq', workers, after, workers, List.cons_append, ← List.append_assoc]
    refine .cons w ?_
    refine List.Perm.trans ?_ (before.symm.append_right j.retired)
    rw [List.append_assoc _ others]
    exact List.perm_append_comm
  refine ⟨?_, ?_, ?_⟩
  · rw [eq']
    exact sound.setWorker name bound (by rw [scratch, numbersAll_nil])
  · intro v mem
    rcases List.mem_cons.1 (all.subset mem) with rfl | mem
    · rw [none]
      exact .nil
    · exact h.increasing v mem
  · intro counter
    refine (h.balanced counter).of_same ?_ ?_ ?_
    · rw [eq']
      exact count counter
    · have entered := numbersUnder_perm counter (all.map Worker.account)
      rw [List.map_cons, numbersUnder_cons, Worker.account, none, ite_self,
        List.nil_append] at entered
      rw [numbers_eq, numbers_eq j]
      have handedOut : (j.record d).handedOut = j.handedOut := by rw [eq']
      rw [handedOut]
      exact entered.append_right _
    · rw [eq']
      exact fun ok => ok

/-- A parser that has used its counter enters the numbers into its tree and its reply. -/
theorem Sound.answers (h : j.Sound) {name : String} {w : Worker} (w' : Worker) {last : Nat}
    {attached handed lost : List Int} (found : j.session.worker? name = some w)
    (same : w'.counter = w.counter) (free : numbersAll w'.parser.scratch = [])
    (le : j.session.count w.counter ≤ last)
    (tree : w'.parser.tree.numbers = w.parser.tree.numbers ++ attached)
    (drawn : attached ++ handed ++ lost = numbersBetween (j.session.count w.counter) last)
    (session : j'.session = (j.session.setCount w.counter last).setWorker name w')
    (retired : j'.retired = j.retired)
    (handedOut : ∀ counter, numbersUnder counter j'.handedOut =
      numbersUnder counter j.handedOut ++ numbersUnder counter [(w.counter, handed)])
    (failed : ∀ counter, counter ∉ j'.failed → counter ∉ j.failed)
    (closed : w.counter ∉ j'.failed → lost = []) : j'.Sound := by
  obtain ⟨bound, -⟩ := h.session.workers _ (Session.mem_of_lookup found)
  have counted := h.session.setCount w.counter last
  obtain ⟨others, before, after⟩ := counted.exists_others name
  have before : j.workers.Perm (w :: (others ++ j.retired)) := by
    have same : (j.session.setCount w.counter last).worker? name = some w := found
    rw [same] at before
    exact before.append_right j.retired
  have after : j'.workers = w' :: (others ++ j.retired) := by
    rw [workers, session, retired, after, List.cons_append]
  have old : w ∈ j.workers := before.symm.subset List.mem_cons_self
  refine ⟨?_, ?_, ?_⟩
  · rw [session]
    exact counted.setWorker name (by simpa [same, Session.setCount] using bound) free
  · intro v mem
    rw [after] at mem
    rcases List.mem_cons.1 mem with rfl | mem
    · rw [List.append_assoc] at drawn
      rw [tree]
      exact h.increasing_append old drawn
    · exact h.increasing v (before.symm.subset (List.mem_cons_of_mem w mem))
  · refine h.balanced_of_use ?_ le drawn ?_ failed closed
    · rw [session]
      exact Session.count_setCount bound last
    · intro counter
      have kept := (numbersUnder_perm counter (before.map Worker.account)).append_right
        (numbersUnder counter j.handedOut)
      rw [← numbers_eq] at kept
      rw [numbers_eq, after, handedOut counter, List.map_cons, Worker.account, same, tree]
      exact (numbersUnder_enter counter _ _ _ _ _ _).trans (kept.symm.append_right _)

theorem Sound.ask (h : j.Sound) (name : String) (request : Request) :
    (j.record (.ask name request)).Sound := by
  cases found : j.session.worker? name with
  | none =>
    have failed : (j.session.run (.ask name request)) =
        { session := j.session, result := .error (.unknown name) } := by rw [Session.run, found]
    have unused : j.session.counterOf? (.ask name request) = none := by
      rw [Session.counterOf?, found, Option.map_none]
    rw [record_eq_self (congrArg Step.result failed) (congrArg Step.session failed) unused]
    exact h
  | some w =>
    have used : j.session.counterOf? (.ask name request) = some w.counter := by
      rw [Session.counterOf?, found, Option.map_some]
    obtain ⟨-, free⟩ := h.session.workers _ (Session.mem_of_lookup found)
    have kept := w.parser.keepsNumbers_answer (j.session.count w.counter) request free
    obtain ⟨attached, tree, result⟩ := kept.numbers
    generalize answer : w.parser.answer (j.session.count w.counter) request = r at *
    have run : j.session.run (.ask name request) =
        { session := (j.session.setCount w.counter r.counter).setWorker name
            ⟨r.parser, w.counter, w.isLost || Session.isNestingFault r.result⟩
          result := r.result.mapError .fault
          output := r.output
          notices := r.notices } := by
      rw [Session.run, found, ← answer]
      rfl
    cases answered : r.result with
    | ok reply =>
      rw [answered] at result
      have ok : (j.session.run (.ask name request)).result = .ok reply := by
        rw [run, answered]
        rfl
      rw [record_of_ok ok, run, used]
      exact h.answers ⟨r.parser, w.counter, _⟩ found rfl kept.scratch kept.le tree
        ((List.append_nil _).trans result) rfl (List.append_nil _)
        (fun _ => numbersUnder_append) (fun _ ok => ok) (fun _ => rfl)
    | error f =>
      rw [answered] at result
      obtain ⟨lost, drawn⟩ := result
      have failed : (j.session.run (.ask name request)).result = .error (.fault f) := by
        rw [run, answered]
        rfl
      rw [record_of_error failed, run, used]
      have drawn : attached ++ [] ++ lost =
          numbersBetween (j.session.count w.counter) r.counter := by rwa [List.append_nil]
      refine h.answers ⟨r.parser, w.counter, _⟩ found rfl kept.scratch kept.le tree drawn rfl rfl
        ?_ ?_ ?_
      · simp [numbersUnder]
      · simp +contextual
      · simp

/-- **Directives keep the accounts in order.** -/
theorem Sound.record (h : j.Sound) (d : Directive) : (j.record d).Sound := by
  cases d with
  | makeCounter label => exact h.makeCounter label
  | draw label times => exact h.draw label times
  | openText name source setup => exact h.opens rfl rfl rfl
  | openFile name file setup =>
    cases text : readDescription j.session.files.lookUp file with
    | error e =>
      have failed : j.session.run (.openFile name file setup) =
          { session := j.session, result := .error (.source e) } := by rw [Session.run, text]
      rw [record_eq_self (congrArg Step.result failed) (congrArg Step.session failed) rfl]
      exact h
    | ok source => exact h.opens rfl rfl (by rw [Session.run, text])
  | ask name request => exact h.ask name request

theorem sound_start (files : Directory) : (start files).Sound where
  session := ⟨.nil, by simp [start], by simp [start]⟩
  increasing := by simp [start, workers]
  balanced := by
    intro counter
    refine ⟨[], ?_, fun _ => rfl⟩
    simp [start, numbers, accounts, workers, numbersUnder, Session.count]

theorem sound_ofDirectives (files : Directory) (ds : List Directive) :
    (ofDirectives files ds).Sound := by
  suffices ∀ j : Journal, j.Sound → (ds.foldl record j).Sound from this _ (sound_start files)
  induction ds with
  | nil => exact fun j h => h
  | cons d ds ih => exact fun j h => ih _ (h.record d)

/-- **Numbers are never used twice.** Whatever is done in a session, and whatever of it fails: the
numbers of the productions in all trees, those that were handed out with nodes, and those that were
drawn directly are, for each counter, different from each other and between one and its last
number. In each tree they increase. If nothing failed that used the counter, they are all the
numbers up to the last one. -/
theorem numbers_ofDirectives (files : Directory) (ds : List Directive) :
    (∀ counter,
      ((ofDirectives files ds).numbers counter).Nodup ∧
      (∀ n ∈ (ofDirectives files ds).numbers counter,
        1 ≤ n ∧ n ≤ (ofDirectives files ds).session.count counter) ∧
      (counter ∉ (ofDirectives files ds).failed →
        ((ofDirectives files ds).numbers counter).Perm
          ((List.range' 1 ((ofDirectives files ds).session.count counter)).map Int.ofNat))) ∧
    ∀ w ∈ (ofDirectives files ds).workers, w.parser.tree.numbers.Pairwise (· < ·) := by
  have sound := sound_ofDirectives files ds
  generalize ofDirectives files ds = j at sound ⊢
  refine ⟨?_, sound.increasing⟩
  intro counter
  obtain ⟨lost, perm, closed⟩ := sound.balanced counter
  refine ⟨?_, ?_, ?_⟩
  · have nodup : (numbersBetween 0 (j.session.count counter)).Nodup :=
      pairwise_numbersBetween.imp fun lt => Int.ne_of_lt lt
    exact (List.nodup_append.1 (perm.nodup_iff.2 nodup)).1
  · intro n mem
    have bounds := mem_numbersBetween.1 (sound.mem_between mem)
    omega
  · intro ok
    rw [closed ok, List.append_nil] at perm
    exact perm

/-- Two parsers share a counter, from which numbers are also drawn directly, and a third one fails
with a counter of its own. -/
def sharedDirectives : List Directive :=
  [.makeCounter "c",
   .openText "p" "productions \x7b A : 'a' ; B : A | 'b' ; \x7d" { counter := some "c" },
   .openText "q" "X : p ; Y : 'q' ;" { counter := some "c" },
   .openText "r" "productions \x7b A : ; \x7d" {},
   .draw "c" 1, .ask "q" (.rule .production), .ask "r" .parse, .ask "p" .parse,
   .ask "q" (.rule .production)]

theorem numbers_sharedDirectives :
    let j := ofDirectives [] sharedDirectives
    (0 ∉ j.failed ∧ (j.numbers 0).Perm ((List.range' 1 5).map Int.ofNat)) ∧
      (4 ∈ j.numbers 0 ∧ 4 ≤ j.session.count 0) ∧
      (1 ∈ j.failed ∧ j.session.count 1 = 1 ∧ (j.numbers 1).Nodup) ∧
      ∃ w ∈ j.workers, w.parser.tree.numbers = [3, 4] ∧ w.parser.tree.numbers.Pairwise (· < ·) := by
  intro j
  have all := numbers_ofDirectives [] sharedDirectives
  have succeeds : 0 ∉ j.failed := by decide +kernel
  have count : j.session.count 0 = 5 := by decide +kernel
  have whole := (all.1 0).2.2 succeeds
  have mem : 4 ∈ j.numbers 0 := by decide +kernel
  have bounds := (all.1 0).2.1 4 mem
  have failed : 1 ∈ j.failed ∧ j.session.count 1 = 1 := by decide +kernel
  have filled : (j.workers.find? (·.parser.tree.numbers = [3, 4])).isSome := by decide +kernel
  obtain ⟨w, found⟩ := Option.isSome_iff_exists.1 filled
  have worker : w ∈ j.workers := List.mem_of_find?_eq_some found
  have numbers : w.parser.tree.numbers = [3, 4] := by simpa using List.find?_some found
  refine ⟨⟨succeeds, ?_⟩, ⟨mem, by omega⟩, ⟨failed.1, failed.2, (all.1 1).1⟩,
    w, worker, numbers, all.2 w worker⟩
  rw [← count]
  exact whole

end Journal

end GrammarNotation
