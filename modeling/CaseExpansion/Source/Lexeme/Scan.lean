import CaseExpansion.Source.Lexeme.Literal

namespace CaseExpansion
namespace Source

open Text (Glyph)

/-!
# Splitting a text into lexemes

The lexemes of a text in order, comments included, up to and including the
end-of-file lexeme.  A line end stands for a semicolon after a lexeme that can
end a statement; the scan carries that as one flag from lexeme to lexeme.  A
general comment with a line feed in it counts as such a line end, and the
semicolon then follows the comment.
-/

namespace Lexeme

def isNameStart (char : Char) : Bool :=
  char == '_' || Text.isLetter char

def isNamePart (char : Char) : Bool :=
  isNameStart char || Text.isDecimalDigit char

/-- The operators that start with a character, by what may follow it: the
longest match comes first. -/
def operatorTable : List (Char × List (List Char × Token)) :=
  [(':', [(['='], .define), ([], .colon)]),
    ('.', [(['.', '.'], .ellipsis), ([], .period)]),
    (',', [([], .comma)]), (';', [([], .semicolon)]),
    ('(', [([], .lparen)]), (')', [([], .rparen)]),
    ('[', [([], .lbrack)]), (']', [([], .rbrack)]),
    ('{', [([], .lbrace)]), ('}', [([], .rbrace)]),
    ('+', [(['='], .addAssign), (['+'], .inc), ([], .add)]),
    ('-', [(['='], .subAssign), (['-'], .dec), ([], .sub)]),
    ('*', [(['='], .mulAssign), ([], .mul)]),
    ('/', [(['='], .quoAssign), ([], .quo)]),
    ('%', [(['='], .remAssign), ([], .rem)]),
    ('^', [(['='], .xorAssign), ([], .xor)]),
    ('<', [(['-'], .arrow), (['='], .leq), (['<', '='], .shlAssign), (['<'], .shl), ([], .lss)]),
    ('>', [(['='], .geq), (['>', '='], .shrAssign), (['>'], .shr), ([], .gtr)]),
    ('=', [(['='], .eql), ([], .assign)]),
    ('!', [(['='], .neq), ([], .not)]),
    ('&', [(['^', '='], .andNotAssign), (['^'], .andNot), (['='], .andAssign), (['&'], .land),
      ([], .and)]),
    ('|', [(['='], .orAssign), (['|'], .lor), ([], .or)]),
    ('~', [([], .tilde)])]

/-- Takes the characters that complete an operator, if they are ahead. -/
def takeAll? : List Char → Reader → Option Reader
  | [], reader => some reader
  | char :: chars, reader => if reader.isAt char then takeAll? chars reader.advance else none

/-- The operator that starts with a character, given the reader after it. -/
def operator? (char : Char) (reader : Reader) : Option (Token × Reader) := do
  let choices ← operatorTable.lookup char
  choices.findSome? fun (rest, token) => do return (token, ← takeAll? rest reader)

def endsStatement : Token → Bool
  | .ident | .kwBreak | .kwContinue | .kwFallthrough | .kwReturn
  | .int | .float | .imag | .char | .string
  | .rparen | .rbrack | .rbrace | .inc | .dec => true
  | _ => false

/-- Whether a character is skipped between lexemes.  A line feed is not, when
it stands for a semicolon. -/
def isSkipped (lineEnds : Bool) (char : Char) : Bool :=
  char == ' ' || char == '\t' || char == '\r' || (char == '\n' && !lineEnds)

/-- One step of a scan: the lexeme, the reader after it, whether a line end
there stands for a semicolon, and the line feed inside of a comment that does
so at once. -/
structure Step where
  lexeme : Lexeme
  reader : Reader
  lineEnds : Bool
  newline? : Option Nat := none

def finish (size : Nat) (start reader : Reader) (token : Token) (literal : Bytes)
    (lineEnds : Bool) (newline? : Option Nat := none) : Step where
  lexeme :=
    { token, offset := start.offset size, stop := reader.offset size, literal
      faults := reader.faults.reverse }
  reader := ⟨reader.ahead, []⟩
  lineEnds
  newline?

/-- Reads a comment; `reader` stands on the second character of its opening. -/
def scanComment (size : Nat) (lineEnds : Bool) (start reader : Reader) : Step :=
  if reader.isAt '/' then
    let reader := Reader.skipWhile (· ≠ '\n') reader.ahead reader.faults
    finish size start reader .comment (LiteralScan.commentText (Reader.between start reader)) lineEnds
  else
    let reader := reader.advance
    let (reader, closed, newline?) := LiteralScan.blockComment none reader.ahead reader.faults
    let reader := if closed then reader else reader.report (start.offset size) .openComment
    let newline? := if lineEnds then newline? else none
    finish size start reader .comment (LiteralScan.commentText (Reader.between start reader))
      (lineEnds && newline?.isNone) newline?

def scanIllegal (size : Nat) (lineEnds : Bool) (start reader : Reader) (char : Char) : Step :=
  let here := start.offset size
  let reader :=
    if char = byteOrderMark then reader
    else if char = '“' || char = '”' then reader.report here (.curlyQuote char)
    else reader.report here (.illegalChar char)
  finish size start reader .illegal (Bytes.ofChar char) lineEnds

/-- Reads the lexeme that starts with the given character, on which the reader
stands. -/
def scanAt (size : Nat) (lineEnds : Bool) (start : Reader) (char : Char) : Step :=
  if isNameStart char then
    let reader := Reader.skipWhile isNamePart start.ahead start.faults
    let word := Reader.between start reader
    let token := Token.ofWord word
    finish size start reader token word (endsStatement token)
  else if NumberScan.isDecimal char
      || (char = '.' && (start.second?.map NumberScan.isDecimal).getD false) then
    let (token, reader) := NumberScan.read size start
    finish size start reader token (Reader.between start reader) true
  else
    let here := start.offset size
    let reader := start.advance
    if char = '\n' then finish size start reader .semicolon [byte '\n'] false
    else if char = '"' then
      let reader := LiteralScan.string size here reader
      finish size start reader .string (Reader.between start reader) true
    else if char = '\'' then
      let reader := LiteralScan.rune size here reader
      finish size start reader .char (Reader.between start reader) true
    else if char = '`' then
      let reader := LiteralScan.rawString here reader
      let literal := (Reader.between start reader).filter (· ≠ byte '\r')
      finish size start reader .string literal true
    else if char = '/' && (reader.isAt '/' || reader.isAt '*') then
      scanComment size lineEnds start reader
    else
      match operator? char reader with
      | some (token, reader) =>
        let literal := if token = .semicolon then [byte ';'] else []
        finish size start reader token literal (endsStatement token)
      | none => scanIllegal size lineEnds start reader char

def scanNext (size : Nat) (lineEnds : Bool) (reader : Reader) : Step :=
  let start := Reader.skipWhile (isSkipped lineEnds) reader.ahead reader.faults
  match start.char? with
  | some char => scanAt size lineEnds start char
  | none =>
    if lineEnds then finish size start start .semicolon [byte '\n'] false
    else finish size start start .eof [] false

/-- The lexemes ahead.  Every step takes a glyph, but for the two that the end
of the text may give, so twice the number of glyphs and two more steps are
enough fuel. -/
def scanFrom (size : Nat) : (fuel : Nat) → (lineEnds : Bool) → Reader → List Lexeme
  | 0, _, _ => []
  | fuel + 1, lineEnds, reader =>
    let step := scanNext size lineEnds reader
    if step.lexeme.token = .eof then [step.lexeme]
    else
      let rest := scanFrom size fuel step.lineEnds step.reader
      match step.newline? with
      | none => step.lexeme :: rest
      | some newline =>
        step.lexeme :: { token := .semicolon, offset := newline, stop := newline, literal := [byte '\n'] }
          :: rest

/-- The reader at the start of a text.  A byte order mark there is passed over.
A text that starts with the mark of a wide encoding is not read any further. -/
def startReader (text : Bytes) : Reader :=
  match text with
  | 0xFF :: 0xFE :: _ | 0xFE :: 0xFF :: _ =>
    ⟨[⟨Text.replacement, text, 0⟩], [⟨0, .wideEncoding⟩]⟩
  | _ =>
    let ahead := Text.Utf8.glyphs text
    let reader : Reader := ⟨ahead, Reader.arrive ahead []⟩
    if reader.isAt byteOrderMark then reader.advance else reader

/-- The lexemes of a text, comments included. -/
def scan (text : Bytes) : List Lexeme :=
  let reader := startReader text
  scanFrom text.length (2 * reader.ahead.length + 2) false reader

end Lexeme
end Source
end CaseExpansion
