import ImpFront.Grammar.Program

/-!
# Reading with a cursor

The rules of the grammar once more, as a machine that works on an array of
tokens: a cursor stands at the next token, is moved by one token at a time
and is never moved back. A rule that calls itself, or a loop, is given fuel,
and each call and each turn is left with less of it. Nothing in the
definitions says that the fuel is enough or that the cursor stays in the
array: a lack of fuel and an access outside of the array both make the
whole computation `none`, and that neither happens is proved elsewhere.

What the machine does is recorded: each access to the array and where the
cursor stands then, each place that the cursor is moved to, and for each
turn of a loop that collects statements the places before and behind it.

A rule that fails has recorded its error and leaves the cursor where it
is. The loops catch the failure and synchronize.
-/

namespace ImpFront

open Token (Kind)
open Grammar (constant? loosest)

/-- Something that a cursor does. -/
inductive Event
  /-- With the cursor at the place, the token at the index is read. -/
  | access (place index : Nat)
  /-- The cursor is moved to the place. -/
  | move (place : Nat)
  /-- A turn of a loop has brought the cursor from one place to another. -/
  | turn (before after : Nat)
deriving DecidableEq, Repr

/-- A place in an array of tokens, and what has happened so far. -/
structure Cursor where
  tokens : Array Token
  current : Nat
  errors : Array SyntaxError
  events : Array Event
deriving DecidableEq, Repr

namespace Cursor

/-- The tokens without comments, and behind them an end of the input unless
they end with one. -/
def closed (tokens : List Token) : List Token :=
  let meaningful := tokens.filter fun token => !token.kind.isComment
  match meaningful.getLast? with
  | none => [.atEnd .start]
  | some last =>
    if last.kind = .endOfInput then meaningful
    else meaningful ++ [.atEnd last.position]

/-- A cursor at the first of the tokens. -/
def ofTokens (tokens : List Token) : Cursor :=
  ⟨(closed tokens).toArray, 0, #[], #[]⟩

/-- Fuel that is enough for an array of tokens: eight for each of them. -/
def fuelFor (tokens : List Token) : Nat :=
  8 * ((closed tokens).length + 1)

/-- A computation that works on a cursor, and fails where a rule of the
grammar does. -/
abbrev Rule := ExceptT Unit (StateT Cursor Option)

/-- There is no outcome, not even a failure. -/
def stuck {α : Type} : Rule α := ExceptT.lift failure

/-! ## Tokens -/

/-- Record what happens. -/
def record (event : Event) : Rule Unit :=
  modify fun cursor => { cursor with events := cursor.events.push event }

/-- The token at an index. -/
def tokenAt (index : Nat) : Rule Token := do
  let cursor ← get
  record (.access cursor.current index)
  match cursor.tokens[index]? with
  | some token => return token
  | none => stuck

/-- The token at the cursor. -/
def peek : Rule Token := do
  tokenAt (← get).current

/-- The token behind the one at the cursor, if there is one. -/
def peekNext : Rule Token := do
  let cursor ← get
  tokenAt (min (cursor.current + 1) (cursor.tokens.size - 1))

/-- The token in front of the cursor, if there is one. -/
def previous : Rule Token := do
  tokenAt ((← get).current - 1)

def isAtEnd : Rule Bool :=
  return (← peek).kind = .endOfInput

def check (kind : Kind) : Rule Bool := do
  if ← isAtEnd then return false
  else return (← peek).kind = kind

/-- Move the cursor by one token. -/
def step : Rule Unit :=
  modify fun cursor =>
    { cursor with
      current := cursor.current + 1
      events := cursor.events.push (.move (cursor.current + 1)) }

/-- Read one token, but not the end of the input. -/
def advance : Rule Token := do
  if ← isAtEnd then previous
  else
    step
    previous

/-- Read one token if it is of one of the kinds. -/
def matchAny : List Kind → Rule Bool
  | [] => return false
  | kind :: kinds => do
    if ← check kind then
      let _ ← advance
      return true
    else matchAny kinds

/-- Fail with an error about the token. -/
def errorAt {α : Type} (token : Token) (fault : SyntaxFault) : Rule α := do
  modify fun cursor =>
    { cursor with errors := cursor.errors.push ⟨fault, token⟩ }
  throw ()

/-- Fail with an error about the token at the cursor. -/
def error {α : Type} (fault : SyntaxFault) : Rule α := do
  errorAt (← peek) fault

/-- Read one token of the kind wanted. -/
def consume (kind : Kind) (fault : SyntaxFault) : Rule Token := do
  if ← check kind then advance
  else error fault

/-- Read on to the next likely beginning of a statement. -/
def skip : Nat → Rule Unit
  | 0 => stuck
  | fuel + 1 => do
    if ← isAtEnd then return ()
    else if (← previous).kind = .semicolon then return ()
    else if (← peek).kind.beginsStatement then return ()
    else
      let _ ← advance
      skip fuel

/-- Pass over one token, and over all others up to the next likely
beginning of a statement. -/
def synchronize (fuel : Nat) : Rule Unit := do
  let _ ← advance
  skip fuel

/-! ## Expressions -/

/-- The operators of each level. -/
def operators : Nat → List Kind
  | 1 => [.times, .divide]
  | 2 => [.plus, .minus]
  | 3 => [.greater, .greaterEqual, .less, .lessEqual]
  | 4 => [.equal, .notEqual]
  | 5 => [.and]
  | 6 => [.or]
  | _ => []

mutual

/-- An expression whose operators stand at most at the level given. -/
def level : Nat → Nat → Rule Expr
  | 0, _ => stuck
  | fuel + 1, 0 => do
    if ← matchAny [.not, .minus] then
      let operator ← previous
      return .unary operator (← level fuel 0)
    else primary fuel
  | fuel + 1, k + 1 => do
    chain fuel k (← level fuel k)

/-- The operators of level `k + 1` that follow a left operand, each with
its right operand. -/
def chain : Nat → Nat → Expr → Rule Expr
  | 0, _, _ => stuck
  | fuel + 1, k, left => do
    if ← matchAny (operators (k + 1)) then
      let operator ← previous
      let right ← level fuel k
      chain fuel k (.binary left operator right)
    else return left

/-- A constant, a name, or an expression in parentheses. -/
def primary : Nat → Rule Expr
  | 0 => stuck
  | fuel + 1 => do
    let token ← peek
    if token.kind = .identifier then
      let _ ← advance
      return .var token
    else if token.kind = .leftParen then
      let _ ← advance
      let inner ← level fuel loosest
      let _ ← consume .rightParen .groupClosing
      return .group inner
    else
      match constant? token with
      | some (.ok value) =>
        let _ ← advance
        return .literal value
      | some (.error fault) =>
        let _ ← advance
        errorAt token fault
      | none => error .operand

end

def expression (fuel : Nat) : Rule Expr := level fuel loosest

/-! ## Statements -/

def readStatement : Rule Stmt := do
  let _ ← consume .leftParen .readOpening
  let name ← consume .identifier .readName
  let _ ← consume .rightParen .readClosing
  let _ ← consume .semicolon .readEnd
  return .read name

def writeStatement (fuel : Nat) : Rule Stmt := do
  let _ ← consume .leftParen .writeOpening
  let value ← expression fuel
  let _ ← consume .rightParen .writeClosing
  let _ ← consume .semicolon .writeEnd
  return .write value

/-- The condition of a branch, in parentheses, and `then`. -/
def ifHead (fuel : Nat) : Rule Expr := do
  let _ ← consume .leftParen .ifOpening
  let condition ← expression fuel
  let _ ← consume .rightParen .ifClosing
  let _ ← consume .thenWord .ifThen
  return condition

/-- The condition of a loop, in parentheses. -/
def whileHead (fuel : Nat) : Rule Expr := do
  let _ ← consume .leftParen .whileOpening
  let condition ← expression fuel
  let _ ← consume .rightParen .whileClosing
  return condition

def expressionStatement (fuel : Nat) : Rule Stmt := do
  let value ← expression fuel
  let _ ← consume .semicolon .expressionEnd
  return .expression value

def assignStatement (fuel : Nat) : Rule Stmt := do
  let name ← consume .identifier .assignmentName
  if ← matchAny [.assign, .plusAssign, .minusAssign, .timesAssign,
      .divideAssign] then
    let operator ← previous
    let value ← expression fuel
    let _ ← consume .semicolon .assignmentEnd
    return .assign name operator value
  else error .assignmentOperator

/-- The declarations behind the first one, after a comma each. -/
def moreDeclarations : Nat → Token → Array Stmt → Rule (Array Stmt)
  | 0, _, _ => stuck
  | fuel + 1, type, stmts => do
    if ← matchAny [.comma] then
      let name ← consume .identifier .anotherDeclarationName
      moreDeclarations fuel type (stmts.push (.declare type name))
    else return stmts

/-- What follows the type of a declaration: one declaration, or a block of
several. -/
def varDeclaration (fuel : Nat) (type : Token) : Rule Stmt := do
  let name ← consume .identifier .declarationName
  let stmts ← moreDeclarations fuel type #[.declare type name]
  let _ ← consume .semicolon .declarationEnd
  match stmts.toList with
  | [stmt] => return stmt
  | stmts => return .block stmts

/-- Does an assignment begin at the cursor? -/
def beginsAssignment : Rule Bool := do
  if ← check .identifier then return (← peekNext).kind.isAssignment
  else return false

/-- Does a sequence end at the cursor? -/
def endsSequence (inBlock : Bool) : Rule Bool := do
  if inBlock then
    if ← check .rightBrace then return true
    else isAtEnd
  else isAtEnd

/-- Record that a turn ends which began at the place. -/
def endTurn (before : Nat) : Rule Unit := do
  record (.turn before (← get).current)

/-- The result of a rule, its failure included. -/
def attempt {α : Type} (rule : Rule α) : Rule (Except Unit α) :=
  (do return .ok (← rule.run) : StateT Cursor Option (Except Unit (Except Unit α)))

mutual

def statement : Nat → Rule Stmt
  | 0 => stuck
  | fuel + 1 => do
    if ← matchAny [.read] then readStatement
    else if ← matchAny [.write] then writeStatement fuel
    else if ← matchAny [.ifWord] then ifStatement fuel
    else if ← matchAny [.whileWord] then whileStatement fuel
    else if ← matchAny [.leftBrace] then return .block (← block fuel)
    else if ← beginsAssignment then assignStatement fuel
    else expressionStatement fuel

def ifStatement : Nat → Rule Stmt
  | 0 => stuck
  | fuel + 1 => do
    let condition ← ifHead fuel
    let thenPart ← statement fuel
    if ← matchAny [.elseWord] then
      return .ifThenElse condition thenPart (← statement fuel)
    else return .ifThen condition thenPart

def whileStatement : Nat → Rule Stmt
  | 0 => stuck
  | fuel + 1 => do
    let condition ← whileHead fuel
    return .whileLoop condition (← statement fuel)

def block : Nat → Rule (List Stmt)
  | 0 => stuck
  | fuel + 1 => do
    let stmts ← sequence fuel true #[]
    let _ ← consume .rightBrace .blockClosing
    return stmts.toList

def declaration : Nat → Rule Stmt
  | 0 => stuck
  | fuel + 1 => do
    if ← matchAny [.long, .double] then
      let type ← previous
      varDeclaration fuel type
    else statement fuel

/-- Declarations and statements up to the end of the input or, inside a
block, up to a closing brace. A turn of the loop reads one of them, or
passes over one that is broken. -/
def sequence : Nat → Bool → Array Stmt → Rule (Array Stmt)
  | 0, _, _ => stuck
  | fuel + 1, inBlock, stmts => do
    if ← endsSequence inBlock then return stmts
    else
      let before := (← get).current
      match ← attempt (declaration fuel) with
      | .ok stmt =>
        endTurn before
        sequence fuel inBlock (stmts.push stmt)
      | .error () =>
        synchronize fuel
        endTurn before
        sequence fuel inBlock stmts

end

/-- Read all the rest as a program. -/
def parse (fuel : Nat) : Rule (List Stmt) :=
  return (← sequence fuel false #[]).toList

/-- Read a number of expressions, whether or not there are any, and then
all the rest as a program. -/
def session (fuel : Nat) : Nat → Rule (List (Option Expr) × List Stmt)
  | 0 => return ([], ← parse fuel)
  | count + 1 => do
    let first ← attempt (expression fuel)
    let (others, stmts) ← session fuel count
    return (first.toOption :: others, stmts)

end Cursor

end ImpFront
