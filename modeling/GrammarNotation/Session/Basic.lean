import GrammarNotation.Files
import GrammarNotation.Session.Request

/-!
# Sessions

In a session any number of parsers are at work, and any number of counters number the productions
that they read. Parsers and counters go by names. A parser that is given no counter has one of its
own.

## Main definitions

- `Session` — the parsers and counters at work
- `Directive` — what can be done in a session
- `Session.run` — do what a directive says

## Design notes

Counters are told apart by the order in which they were made. A name stands for the counter that
was made last under it, and parsers go on with the counter that they were given.
-/

namespace GrammarNotation

/-! ### What is at work -/

/-- A parser at work in a session. -/
structure Worker where
  parser : Parser
  /-- Which of the counters numbers its productions. -/
  counter : Nat
  /-- Groups were once nested too deeply, so that how many tokens are taken is no longer told. -/
  isLost : Bool := false

/-- The parsers and counters at work. -/
structure Session where
  /-- The files that descriptions are read from. -/
  files : Directory
  /-- The last number drawn from each counter, in the order in which the counters were made. -/
  counts : List Nat := []
  /-- The counters that have names, the latest first. -/
  counters : List (String × Nat) := []
  workers : List (String × Worker) := []

/-! ### What can be done -/

/-- How a parser is set up in a session. -/
structure Setup where
  /-- How it cuts and reads. -/
  settings : Settings := {}
  /-- The name of its counter, if it shares one. -/
  counter : Option String := none
  /-- Whether comments are kept among the tokens. -/
  keepComments : Bool := false

/-- What can be done in a session. -/
inductive Directive where
  | makeCounter (counter : String)
  /-- Draw numbers from a counter. -/
  | draw (counter : String) (times : Nat)
  /-- Set up a parser for a text. -/
  | openText (parser : String) (source : String) (setup : Setup)
  /-- Set up a parser for the text of a file. -/
  | openFile (parser : String) (file : String) (setup : Setup)
  /-- Ask something of a parser. -/
  | ask (parser : String) (request : Request)

/-- Why a directive fails. -/
inductive DirectiveError where
  | fault (f : Fault)
  /-- The description cannot be had. -/
  | source (e : SourceError)
  /-- Nothing in the session has that name. -/
  | unknown (name : String)

/-- What comes of a directive. -/
structure Step where
  session : Session
  /-- The reply, or why there is none. -/
  result : Except DirectiveError Reply
  output : String := ""
  notices : List Notice := []

namespace Directive

/-- The name of the parser that a directive is about. -/
def parser? : Directive → Option String
  | .makeCounter _ | .draw _ _ => none
  | .openText parser _ _ | .openFile parser _ _ | .ask parser _ => some parser

end Directive

/-! ### Doing it -/

namespace Session

/-- The parser with the given name. -/
def worker? (s : Session) (name : String) : Option Worker := s.workers.lookup name

/-- The last number drawn from a counter. -/
def count (s : Session) (counter : Nat) : Nat := s.counts[counter]?.getD 0

/-- The session with the parser put under a name. -/
def setWorker (s : Session) (name : String) (w : Worker) : Session :=
  { s with workers := (name, w) :: s.workers.filter (·.1 != name) }

/-- The session with one more counter, from which nothing has been drawn. -/
def addCounter (s : Session) : Session := { s with counts := s.counts ++ [0] }

/-- The session with a parser set up for a text. The reply is the number of its tokens. -/
def openSource (s : Session) (name source : String) (setup : Setup) : Step :=
  let (parser, noted) := Parser.ofSource setup.settings source
  let (parser, notedAgain) := if setup.keepComments then parser.keepComments else (parser, [])
  let reply := Reply.count parser.stream.toList.length
  let notices := noted ++ notedAgain
  match setup.counter with
  | none =>
    { session := s.addCounter.setWorker name ⟨parser, s.counts.length, false⟩
      result := .ok reply
      notices }
  | some label =>
    match s.counters.lookup label with
    | none => { session := s, result := .error (.unknown label) }
    | some counter =>
      { session := s.setWorker name ⟨parser, counter, false⟩
        result := .ok reply
        notices }

/-- Tells whether a result is the fault that groups are nested too deeply. -/
def isNestingFault {α : Type} : Except Fault α → Bool
  | .error f => f.kind == .nesting
  | .ok _ => false

/-- Does what a directive says. -/
def run (s : Session) : Directive → Step
  | .makeCounter label =>
    { session := { s.addCounter with counters := (label, s.counts.length) :: s.counters }
      result := .ok .nothing }
  | .draw label times =>
    match s.counters.lookup label with
    | none => { session := s, result := .error (.unknown label) }
    | some counter =>
      let last := s.count counter
      { session := { s with counts := s.counts.set counter (last + times) }
        result := .ok (.counts (List.range' (last + 1) times)) }
  | .openText parser source setup => s.openSource parser source setup
  | .openFile parser file setup =>
    match readDescription s.files.lookUp file with
    | .error e => { session := s, result := .error (.source e) }
    | .ok source => s.openSource parser source setup
  | .ask parser request =>
    match s.worker? parser with
    | none => { session := s, result := .error (.unknown parser) }
    | some w =>
      let r := w.parser.answer (s.count w.counter) request
      let w' := ⟨r.parser, w.counter, w.isLost || isNestingFault r.result⟩
      { session := { s with counts := s.counts.set w.counter r.counter }.setWorker parser w'
        result := r.result.mapError .fault
        output := r.output
        notices := r.notices }

end Session

end GrammarNotation
