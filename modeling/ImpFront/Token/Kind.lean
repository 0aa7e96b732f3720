/-!
# Kinds of tokens

The closed set of categories into which a source text is cut: reserved
words, operators, punctuation, identifiers, constants, comments, the end
of the input, and single characters that mean nothing in the language.

Each kind has a name in capitals, which reports print and `ofName?` reads
back. The tables of this module are the whole vocabulary of the language:
`keyword?` says which words are reserved, `ofPair?` and `ofChar?` which
characters make an operator or a punctuation mark.

## Main results

* `ofName?_name` — the names tell the kinds apart.
-/

namespace ImpFront.Token

/-- The category of a token. -/
inductive Kind
  -- reserved words
  | long | double | ifWord | thenWord | elseWord | whileWord | breakWord
  | read | write
  -- arithmetic
  | plus | minus | times | divide
  -- comparison and logic
  | greater | less | greaterEqual | lessEqual | equal | notEqual
  | and | or | not
  -- assignment
  | assign | plusAssign | minusAssign | timesAssign | divideAssign
  -- punctuation
  | leftParen | rightParen | leftBrace | rightBrace | semicolon | comma
  -- identifiers and constants
  | identifier | integer | real | string | boolean
  -- comments
  | lineComment | blockComment
  -- the end of the input, and what the language has no use for
  | endOfInput | unknown
deriving DecidableEq, Repr

namespace Kind

/-- The name under which reports show a kind. -/
def name : Kind → String
  | long => "LONG"
  | double => "DOUBLE"
  | ifWord => "IF"
  | thenWord => "THEN"
  | elseWord => "ELSE"
  | whileWord => "WHILE"
  | breakWord => "BREAK"
  | read => "READ"
  | write => "WRITE"
  | plus => "PLUS"
  | minus => "MINUS"
  | times => "MULTIPLY"
  | divide => "DIVIDE"
  | greater => "GREATER"
  | less => "LESS"
  | greaterEqual => "GREATER_EQUAL"
  | lessEqual => "LESS_EQUAL"
  | equal => "EQUAL"
  | notEqual => "NOT_EQUAL"
  | and => "AND"
  | or => "OR"
  | not => "NOT"
  | assign => "ASSIGN"
  | plusAssign => "PLUS_ASSIGN"
  | minusAssign => "MINUS_ASSIGN"
  | timesAssign => "MULT_ASSIGN"
  | divideAssign => "DIV_ASSIGN"
  | leftParen => "LPAREN"
  | rightParen => "RPAREN"
  | leftBrace => "LBRACE"
  | rightBrace => "RBRACE"
  | semicolon => "SEMICOLON"
  | comma => "COMMA"
  | identifier => "IDENTIFIER"
  | integer => "INTEGER_CONST"
  | real => "REAL_CONST"
  | string => "STRING_CONST"
  | boolean => "BOOLEAN_CONST"
  | lineComment => "COMMENT_SINGLE"
  | blockComment => "COMMENT_MULTI"
  | endOfInput => "EOF"
  | unknown => "UNKNOWN"

/-- Every kind, in the order of its declaration. -/
def all : List Kind :=
  [long, double, ifWord, thenWord, elseWord, whileWord, breakWord, read, write,
   plus, minus, times, divide,
   greater, less, greaterEqual, lessEqual, equal, notEqual, and, or, not,
   assign, plusAssign, minusAssign, timesAssign, divideAssign,
   leftParen, rightParen, leftBrace, rightBrace, semicolon, comma,
   identifier, integer, real, string, boolean,
   lineComment, blockComment, endOfInput, unknown]

theorem mem_all (kind : Kind) : kind ∈ all := by
  cases kind <;> decide

/-- The kind of a given name. -/
def ofName? (text : String) : Option Kind :=
  all.find? fun kind => kind.name = text

/-- A name leads back to its kind, so no two kinds share one. -/
theorem ofName?_name (kind : Kind) : ofName? kind.name = some kind := by
  cases kind <;> decide +kernel

/-- The kind of a word that is no identifier: the reserved words, and the
two truth values, which are constants. -/
def keyword? : String → Option Kind
  | "long" => some long
  | "double" => some double
  | "if" => some ifWord
  | "then" => some thenWord
  | "else" => some elseWord
  | "while" => some whileWord
  | "break" => some breakWord
  | "read" => some read
  | "write" => some write
  | "true" => some boolean
  | "false" => some boolean
  | _ => none

/-- The operators written with two characters. -/
def ofPair? : Char → Char → Option Kind
  | '+', '=' => some plusAssign
  | '-', '=' => some minusAssign
  | '*', '=' => some timesAssign
  | '/', '=' => some divideAssign
  | '>', '=' => some greaterEqual
  | '<', '=' => some lessEqual
  | '=', '=' => some equal
  | '!', '=' => some notEqual
  | '&', '&' => some and
  | '|', '|' => some or
  | _, _ => none

/-- The operators and punctuation marks written with one character. -/
def ofChar? : Char → Option Kind
  | '+' => some plus
  | '-' => some minus
  | '*' => some times
  | '/' => some divide
  | '>' => some greater
  | '<' => some less
  | '=' => some assign
  | '!' => some not
  | '(' => some leftParen
  | ')' => some rightParen
  | '{' => some leftBrace
  | '}' => some rightBrace
  | ';' => some semicolon
  | ',' => some comma
  | _ => none

/-- Does the kind assign to the variable before it? -/
def isAssignment : Kind → Bool
  | assign | plusAssign | minusAssign | timesAssign | divideAssign => true
  | _ => false

/-- Is the kind a comment, which no rule of the grammar sees? -/
def isComment : Kind → Bool
  | lineComment | blockComment => true
  | _ => false

/-- May the kind stand before its operand? -/
def isUnary : Kind → Bool
  | not | minus => true
  | _ => false

/-- How loosely a binary operator binds: multiplication binds tightest, at
level one, and disjunction loosest, at level six. -/
def looseness? : Kind → Option Nat
  | times | divide => some 1
  | plus | minus => some 2
  | greater | greaterEqual | less | lessEqual => some 3
  | equal | notEqual => some 4
  | and => some 5
  | or => some 6
  | _ => none

end Kind

end ImpFront.Token
