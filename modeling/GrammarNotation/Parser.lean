import GrammarNotation.Reading.Run
import GrammarNotation.Token.Source
import GrammarNotation.Token.Stream
import GrammarNotation.Tree.Outline

/-!
# Parsers

A parser is one description that is being read: its source, the stream of its tokens, the tree
built so far, and a scratch body for expressions that are read on their own. Every reading goes on
where the last one left the stream, also after a fault. The counter that numbers productions is
not part of a parser, since several parsers may share one.

## Main definitions

- `Tracing`, `Settings` — what a parser shows while it works, and how it reads
- `Parser` — a description that is being read
- `Progress` — what comes of a reading
- `Parser.ofTokens`, `Parser.ofSource` — a parser that has read nothing yet
- `Parser.readRule` — read what one rule of the notation describes
- `Parser.parse` — read all that is left, and write the trace
-/

namespace GrammarNotation

/-- What a parser shows while it works. -/
structure Tracing where
  /-- The tree as indented lines, once it is complete. -/
  flat : Bool := false
  /-- The tree drawn with connectors, once it is complete. -/
  drawn : Bool := false
  /-- Every token, before the reading starts. -/
  tokens : Bool := false

/-- What the three lowest bits of a level ask for. -/
def Tracing.ofLevel (level : Int) : Tracing where
  flat := level % 2 == 1
  drawn := level / 2 % 2 == 1
  tokens := level / 4 % 2 == 1

/-- How a description is cut and read. -/
structure Settings where
  tracing : Tracing := {}
  /-- Strict or lenient, and the depth limit. -/
  mode : Mode := {}
  vocabulary : Vocabulary := .standard

/-- A description that is being read. -/
structure Parser where
  source : String
  /-- Its tokens, and how far they have been taken. -/
  stream : TokenStream
  tracing : Tracing
  /-- Strict or lenient, and the depth limit. -/
  mode : Mode
  /-- The children of the root of the tree. -/
  children : List Tree := []
  /-- The nodes of the expressions that were read on their own. -/
  scratch : List Tree := []

/-- What comes of a reading: the parser after it, the counter, what was written and noted, and the
result or the fault. -/
structure Progress (α : Type) where
  parser : Parser
  counter : Nat
  output : String := ""
  notices : List Notice := []
  /-- What was read, or what is wrong. -/
  result : Except Fault α

/-- The reading with its result made into another one. -/
def Progress.map {α β : Type} (f : Parser → α → β) (r : Progress α) : Progress β :=
  { r with result := r.result.map (f r.parser) }

/-- Tells whether the nodes that a rule reads go into the scratch body. -/
def Rule.fillsScratch : Rule → Bool
  | .expression | .term | .factor => true
  | _ => false

namespace Parser

/-- A parser in front of the given tokens of a source. -/
def ofTokens (s : Settings) (source : String) (tokens : List Token) : Parser :=
  { source, stream := .ofList tokens, tracing := s.tracing, mode := s.mode }

/-- A parser at the beginning of a source, and what was noted while the source was cut. -/
def ofSource (s : Settings) (source : String) : Parser × List Notice :=
  let tokens := s.vocabulary.tokens false source
  (ofTokens s source tokens, Notice.ofTokens tokens)

/-- The parser at the beginning of its source, cut with the standard vocabulary and with its
comments kept, and what was noted while it was cut. -/
def keepComments (p : Parser) : Parser × List Notice :=
  let tokens := Vocabulary.standard.tokens true p.source
  ({ p with stream := .ofList tokens }, Notice.ofTokens tokens)

/-- The tree built so far. -/
def tree (p : Parser) : Tree := .node .root p.children

/-- The scratch body as a tree. -/
def scratchTree (p : Parser) : Tree := .node .root p.scratch

/-- The token that comes next. -/
def peek? (p : Parser) : Option Token := p.stream.ahead.head?

/-- Tells whether the given symbol comes next. -/
def peeksSymbol (p : Parser) (s : String) : Bool := p.peek?.any (·.isSymbol s)

/-- Tells whether the body of a section ends here: at a closing brace or at the end. -/
def atSectionEnd (p : Parser) : Bool := p.peek?.isNone || p.peeksSymbol sectionCloser

/-- The parser after a reading that started from it. -/
def after (p : Parser) (o : Outcome) : Parser :=
  { p with stream := p.stream.advanceTo o.rest, children := o.draft.children }

/-- The result of an outcome. -/
def resultOf {α : Type} (o : Outcome) (value : α) : Except Fault α :=
  o.fault.elim (.ok value) .error

/-- Reads what a rule describes. The result is the list of nodes of a section that were read and
are not part of the tree. -/
def readRule (p : Parser) (r : Rule) (counter : Nat) : Progress (List Tree) :=
  let body := if r.fillsScratch then p.scratch else []
  let o := read p.mode r.goals (.resume p.children body counter) p.stream.ahead
  { parser := { p.after o with scratch := if r.fillsScratch then o.draft.body else p.scratch }
    counter := o.draft.counter
    notices := o.draft.notices
    result := resultOf o o.draft.pending }

/-- Takes the symbol if it comes next, and tells whether it does. -/
def readSeparator (p : Parser) (s : String) (counter : Nat) : Progress Bool :=
  let o := read p.mode [.separator s] (.resume p.children [] counter) p.stream.ahead
  { parser := p.after o, counter, result := resultOf o (p.peeksSymbol s) }

/-- Takes the next token, which must be there. -/
def readToken (p : Parser) (phrase : String) (counter : Nat) : Progress Token :=
  match p.stream.next? with
  | none => { parser := p, counter, result := .error (.endOfInput phrase) }
  | some (t, stream) => { parser := { p with stream }, counter, result := .ok t }

/-- What the tracing writes about a complete tree. -/
def traceText (p : Parser) : String :=
  (if p.tracing.flat then p.tree.trace else "")
    ++ (if p.tracing.drawn then p.tree.drawing ++ "\n" else "")

/-- Reads all that is left of the description. The result is the tree. -/
def parse (p : Parser) (counter : Nat) : Progress Tree :=
  let listed := if p.tracing.tokens then p.stream.toList.map Notice.tokenListed else []
  let r := p.readRule .description counter
  { r.map fun p _ => p.tree with
    output := if r.result.isOk then r.parser.traceText else ""
    notices := listed ++ r.notices }

end Parser

end GrammarNotation
