import GrammarNotation.Parser

/-!
# Requests to a parser

Everything that can be asked of a parser, and the reply to it.

## Main definitions

- `Request` — what can be asked
- `Reply` — the forms of a reply
- `Parser.answer` — the reply of a parser, and the parser after it
-/

namespace GrammarNotation

/-- What can be asked of a parser. -/
inductive Request where
  | parse
  | rule (r : Rule)
  | tree
  | scratch
  | source
  | drawing
  | print
  | descriptions
  | indentedDescriptions
  | atSectionEnd
  | lastToken
  | nextToken (phrase : String)
  | peekSymbol (s : String)
  | separator (s : String)
  | startsFactor (t : Option Token)

/-- A reply of a parser. -/
inductive Reply where
  | nothing
  | flag (b : Bool)
  | count (n : Nat)
  | counts (ns : List Nat)
  | text (s : String)
  | texts (ss : List String)
  | indentedTexts (ss : List (String × String))
  | token (t : Option Token)
  | tree (t : Tree)
  | trees (ts : List Tree)

/-- The reply to the reading of a rule, from the nodes that were read: the name for a grammar
section, the nodes for the other sections, the node for a production, and the scratch body for an
expression or a part of one. -/
def Rule.reply (r : Rule) (p : Parser) (nodes : List Tree) : Reply :=
  match r, nodes with
  | .description, _ => .nothing
  | .grammarSection, .node (.grammar name) _ :: _ => .text name
  | .production, node :: _ => .tree node
  | .tokenSection, nodes | .productionSection, nodes => .trees nodes
  | .expression, _ | .term, _ | .factor, _ => .tree p.scratchTree
  | .grammarSection, _ | .production, _ => .nothing

namespace Parser

/-- The reply of a parser to a request that changes nothing. -/
def reply (p : Parser) (counter : Nat) (r : Reply) : Progress Reply :=
  { parser := p, counter, result := .ok r }

/-- What comes of a request. -/
def answer (p : Parser) (counter : Nat) : Request → Progress Reply
  | .parse => (p.parse counter).map fun _ => .tree
  | .rule r => (p.readRule r counter).map r.reply
  | .tree => p.reply counter (.tree p.tree)
  | .scratch => p.reply counter (.tree p.scratchTree)
  | .source => p.reply counter (.text p.source)
  | .drawing => p.reply counter (.text p.tree.drawing)
  | .print => { p.reply counter .nothing with output := p.tree.drawing ++ "\n" }
  | .descriptions => p.reply counter (.texts (p.tree.preorder.map (·.role.description)))
  | .indentedDescriptions =>
    p.reply counter (.indentedTexts
      ((p.tree.indented "").map fun placed => (placed.1, placed.2.role.description)))
  | .atSectionEnd => p.reply counter (.flag p.atSectionEnd)
  | .lastToken => p.reply counter (.token p.stream.last?)
  | .nextToken phrase => (p.readToken phrase counter).map fun _ t => .token (some t)
  | .peekSymbol s => p.reply counter (.flag (p.peeksSymbol s))
  | .separator s => (p.readSeparator s counter).map fun _ => .flag
  | .startsFactor t => p.reply counter (.flag (t.any GrammarNotation.startsFactor))

end Parser

end GrammarNotation
