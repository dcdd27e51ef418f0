import CaseExpansion.Text.Bytes

namespace CaseExpansion
namespace Source

/-!
# Tokens of the language

The lexical vocabulary of Go source files.  Operators and keywords stand for
themselves; identifiers and literals carry their text in the lexeme that holds
the token.
-/

inductive Token where
  | illegal | eof | comment
  | ident | int | float | imag | char | string
  | add | sub | mul | quo | rem
  | and | or | xor | shl | shr | andNot
  | addAssign | subAssign | mulAssign | quoAssign | remAssign
  | andAssign | orAssign | xorAssign | shlAssign | shrAssign | andNotAssign
  | land | lor | arrow | inc | dec | eql | lss | gtr | assign | not
  | neq | leq | geq | define | ellipsis
  | lparen | lbrack | lbrace | comma | period
  | rparen | rbrack | rbrace | semicolon | colon | tilde
  | kwBreak | kwCase | kwChan | kwConst | kwContinue | kwDefault | kwDefer | kwElse
  | kwFallthrough | kwFor | kwFunc | kwGo | kwGoto | kwIf | kwImport | kwInterface
  | kwMap | kwPackage | kwRange | kwReturn | kwSelect | kwStruct | kwSwitch | kwType | kwVar
deriving DecidableEq, Repr, Inhabited

namespace Token

def keywords : List (Bytes × Token) :=
  [("break", kwBreak), ("case", kwCase), ("chan", kwChan), ("const", kwConst),
    ("continue", kwContinue), ("default", kwDefault), ("defer", kwDefer), ("else", kwElse),
    ("fallthrough", kwFallthrough), ("for", kwFor), ("func", kwFunc), ("go", kwGo),
    ("goto", kwGoto), ("if", kwIf), ("import", kwImport), ("interface", kwInterface),
    ("map", kwMap), ("package", kwPackage), ("range", kwRange), ("return", kwReturn),
    ("select", kwSelect), ("struct", kwStruct), ("switch", kwSwitch), ("type", kwType),
    ("var", kwVar)]

def isKeyword (word : Bytes) : Bool :=
  keywords.any fun (keyword, _) => keyword == word

/-- The token of a word: a keyword's own, and `ident` for every other word. -/
def ofWord (word : Bytes) : Token :=
  (keywords.lookup word).getD ident

def operators : List (Token × String) :=
  [(add, "+"), (sub, "-"), (mul, "*"), (quo, "/"), (rem, "%"),
    (and, "&"), (or, "|"), (xor, "^"), (shl, "<<"), (shr, ">>"), (andNot, "&^"),
    (addAssign, "+="), (subAssign, "-="), (mulAssign, "*="), (quoAssign, "/="), (remAssign, "%="),
    (andAssign, "&="), (orAssign, "|="), (xorAssign, "^="), (shlAssign, "<<="), (shrAssign, ">>="),
    (andNotAssign, "&^="), (land, "&&"), (lor, "||"), (arrow, "<-"), (inc, "++"), (dec, "--"),
    (eql, "=="), (lss, "<"), (gtr, ">"), (assign, "="), (not, "!"), (neq, "!="), (leq, "<="),
    (geq, ">="), (define, ":="), (ellipsis, "..."), (lparen, "("), (lbrack, "["), (lbrace, "\x7b"),
    (comma, ","), (period, "."), (rparen, ")"), (rbrack, "]"), (rbrace, "\x7d"),
    (semicolon, ";"), (colon, ":"), (tilde, "~")]

/-- Classes of lexemes that have no one spelling, with the name they go by in
messages. -/
def classes : List (Token × Bytes) :=
  [(illegal, "ILLEGAL"), (eof, "EOF"), (comment, "COMMENT"), (ident, "IDENT"), (int, "INT"),
    (float, "FLOAT"), (imag, "IMAG"), (char, "CHAR"), (string, "STRING")]

def spelling (token : Token) : Bytes :=
  match operators.lookup token with
  | some text => Bytes.ofString text
  | none =>
    match keywords.find? fun (_, keyword) => keyword == token with
    | some (text, _) => text
    | none => (classes.lookup token).getD []

/-- Whether lexemes of this class carry a text of their own. -/
def isLiteral : Token → Bool
  | ident | int | float | imag | char | string => true
  | _ => false

/-- How tightly a binary operator binds; zero for every other token. -/
def precedence : Token → Nat
  | lor => 1
  | land => 2
  | eql | neq | lss | leq | gtr | geq => 3
  | add | sub | or | xor => 4
  | mul | quo | rem | shl | shr | and | andNot => 5
  | _ => 0

def isAssignment : Token → Bool
  | define | assign | addAssign | subAssign | mulAssign | quoAssign | remAssign | andAssign
  | orAssign | xorAssign | shlAssign | shrAssign | andNotAssign => true
  | _ => false

end Token
end Source
end CaseExpansion
