/-
# Kinds of token

The lexical categories of Cp: punctuation, operators of one and two characters, names, the
three kinds of literal, and the sixteen reserved words.  `Kind.name` is the spelling used in
token dumps, `Kind.ofWord?` looks a word up among the reserved ones, which are matched exactly
and case by case.
-/

namespace CpScan

/-! ## 1. The kinds -/

/-- The lexical category of a token. -/
inductive Kind where
  | leftParen | rightParen | leftBrace | rightBrace
  | comma | dot | minus | plus | semicolon | slash | star
  | starStar | bang | bangEqual | equal | equalEqual
  | greater | greaterEqual | less | lessEqual
  | identifier | string | int | float
  | kwAnd | kwClass | kwElse | kwFalse | kwFor | kwFun | kwIf | kwNil
  | kwOr | kwPrint | kwReturn | kwSuper | kwThis | kwTrue | kwVar | kwWhile
deriving DecidableEq, Repr, Inhabited

namespace Kind

/-- The name of a kind in a token dump. -/
def name : Kind → String
  | leftParen => "LEFT_PAREN"
  | rightParen => "RIGHT_PAREN"
  | leftBrace => "LEFT_BRACE"
  | rightBrace => "RIGHT_BRACE"
  | comma => "COMMA"
  | dot => "DOT"
  | minus => "MINUS"
  | plus => "PLUS"
  | semicolon => "SEMICOLON"
  | slash => "SLASH"
  | star => "STAR"
  | starStar => "STAR_STAR"
  | bang => "BANG"
  | bangEqual => "BANG_EQUAL"
  | equal => "EQUAL"
  | equalEqual => "EQUAL_EQUAL"
  | greater => "GREATER"
  | greaterEqual => "GREATER_EQUAL"
  | less => "LESS"
  | lessEqual => "LESS_EQUAL"
  | identifier => "IDENTIFIER"
  | string => "STRING"
  | int => "INT"
  | float => "FLOAT"
  | kwAnd => "AND"
  | kwClass => "CLASS"
  | kwElse => "ELSE"
  | kwFalse => "FALSE"
  | kwFor => "FOR"
  | kwFun => "FUN"
  | kwIf => "IF"
  | kwNil => "NIL"
  | kwOr => "OR"
  | kwPrint => "PRINT"
  | kwReturn => "RETURN"
  | kwSuper => "SUPER"
  | kwThis => "THIS"
  | kwTrue => "TRUE"
  | kwVar => "VAR"
  | kwWhile => "WHILE"

/-- Whether tokens of the kind carry a decoded value. -/
def hasLiteral : Kind → Bool
  | string | int | float => true
  | _ => false

/-! ## 2. Reserved words -/

/-- The reserved words and their kinds. -/
def reserved : List (String × Kind) :=
  [("and", kwAnd), ("class", kwClass), ("else", kwElse), ("false", kwFalse),
   ("for", kwFor), ("fun", kwFun), ("if", kwIf), ("nil", kwNil),
   ("or", kwOr), ("print", kwPrint), ("return", kwReturn), ("super", kwSuper),
   ("this", kwThis), ("true", kwTrue), ("var", kwVar), ("while", kwWhile)]

/-- The kind of a reserved word, and nothing for any other text. -/
def ofWord? (word : String) : Option Kind := reserved.lookup word

/-- The kind of a word: its own if it is reserved, and otherwise an identifier. -/
def ofWord (word : String) : Kind := (ofWord? word).getD identifier

end Kind

end CpScan
