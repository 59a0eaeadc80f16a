import GrammarNotation.Description.Basic
import GrammarNotation.Token.Basic

/-!
# Sentences of the notation

The rules of the notation, as relations between lists of tokens and what they say:

    Description : { Grammar | Tokens | Productions } ;
    Grammar     : "grammar" Identifier ";" ;
    Tokens      : "tokens" "{" { Identifier ":" Literal } "}" ;
    Productions : "productions" "{" { Production } "}" ;
    Production  : Identifier ":" Expression ";" ;
    Expression  : Term { "|" Term } ;
    Term        : Factor { Factor } ;
    Factor      : Identifier | Literal | "[" Expression "]" | "(" Expression ")"
                | "{" Expression "}" | "{:" Literal ":}" ;

## Main definitions

- `FactorSentence`, `TermSentence`, `ExpressionSentence` — the rules for expressions
- `SectionSentence` — the rules for sections
- `Sentence` — the tokens spell the description

## Design notes

The relations speak of the class and the text of tokens only, so places play no part.
-/

namespace GrammarNotation

mutual

/-- The tokens spell the factor. -/
inductive FactorSentence : List Token → Factor → Prop
  | nonterminal {name : Token} : name.kind = .identifier →
      FactorSentence [name] (.nonterminal name.text)
  | terminal {text : Token} : text.kind = .literal →
      FactorSentence [text] (.terminal text.text)
  | action {opener code closer : Token} : opener.isSymbol "\x7b:" → code.kind = .literal →
      closer.isSymbol ":\x7d" → FactorSentence [opener, code, closer] (.action code.text)
  | enclosed {b : Bracket} {opener closer : Token} {inner : List Token} {e : Expression} :
      opener.isSymbol b.opener → ExpressionSentence inner e → closer.isSymbol b.closer →
      FactorSentence (opener :: (inner ++ [closer])) (.enclosed b e)

/-- The tokens spell the term. -/
inductive TermSentence : List Token → Term → Prop
  | one {ts : List Token} {f : Factor} : FactorSentence ts f → TermSentence ts (.one f)
  | more {ts us : List Token} {f : Factor} {t : Term} : FactorSentence ts f →
      TermSentence us t → TermSentence (ts ++ us) (.more f t)

/-- The tokens spell the expression. -/
inductive ExpressionSentence : List Token → Expression → Prop
  | one {ts : List Token} {t : Term} : TermSentence ts t → ExpressionSentence ts (.one t)
  | more {bar : Token} {ts us : List Token} {t : Term} {e : Expression} : TermSentence ts t →
      bar.isSymbol "|" → ExpressionSentence us e →
      ExpressionSentence (ts ++ bar :: us) (.more t e)

end

/-- The tokens spell the entries of a token section. -/
inductive EntriesSentence : List Token → List (String × String) → Prop
  | nil : EntriesSentence [] []
  | cons {name colon pattern : Token} {ts : List Token} {entries : List (String × String)} :
      name.kind = .identifier → colon.isSymbol ":" → pattern.kind = .literal →
      EntriesSentence ts entries →
      EntriesSentence (name :: colon :: pattern :: ts) ((name.text, pattern.text) :: entries)

/-- The tokens spell the productions of a section. -/
inductive ProductionsSentence : List Token → List (String × Expression) → Prop
  | nil : ProductionsSentence [] []
  | cons {name colon semicolon : Token} {body ts : List Token} {e : Expression}
      {rules : List (String × Expression)} :
      name.kind = .identifier → colon.isSymbol ":" → ExpressionSentence body e →
      semicolon.isSymbol ";" → ProductionsSentence ts rules →
      ProductionsSentence (name :: colon :: (body ++ semicolon :: ts)) ((name.text, e) :: rules)

/-- The token is the given keyword. -/
def Token.IsKeyword (t : Token) (s : String) : Prop := t.kind = .keyword ∧ t.text = s

/-- The tokens spell the section. -/
inductive SectionSentence : List Token → Section → Prop
  | grammar {keyword name semicolon : Token} : keyword.IsKeyword "grammar" →
      name.kind = .identifier → semicolon.isSymbol ";" →
      SectionSentence [keyword, name, semicolon] (.grammar name.text)
  | tokens {keyword opener closer : Token} {ts : List Token} {entries : List (String × String)} :
      keyword.IsKeyword "tokens" → opener.isSymbol "\x7b" → EntriesSentence ts entries →
      closer.isSymbol "\x7d" →
      SectionSentence (keyword :: opener :: (ts ++ [closer])) (.tokens entries)
  | productions {keyword opener closer : Token} {ts : List Token}
      {rules : List (String × Expression)} :
      keyword.IsKeyword "productions" → opener.isSymbol "\x7b" → ProductionsSentence ts rules →
      closer.isSymbol "\x7d" →
      SectionSentence (keyword :: opener :: (ts ++ [closer])) (.productions rules)

/-- The tokens spell the description. -/
inductive Sentence : List Token → Description → Prop
  | nil : Sentence [] []
  | cons {ts us : List Token} {s : Section} {d : Description} : SectionSentence ts s →
      Sentence us d → Sentence (ts ++ us) (s :: d)

end GrammarNotation
