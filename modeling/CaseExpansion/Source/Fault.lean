import CaseExpansion.Text.Quoted

namespace CaseExpansion
namespace Source

/-!
# Lexical faults

What can be wrong with the characters of a source text, apart from its
grammar.  Each cause has one wording, `Defect.message`.
-/

inductive Radix where
  | binary | octal | decimal | hexadecimal
deriving DecidableEq, Repr

namespace Radix

def base : Radix → Nat
  | binary => 2
  | octal => 8
  | decimal => 10
  | hexadecimal => 16

/-- What a literal in this radix is called in messages. -/
def title : Radix → Bytes
  | binary => "binary literal"
  | octal => "octal literal"
  | decimal => "decimal literal"
  | hexadecimal => "hexadecimal literal"

end Radix

/-- A cause for which a text cannot be split into lexemes. -/
inductive Defect where
  | nul
  | malformedUtf8
  | wideEncoding
  | byteOrderMark
  | illegalChar (char : Char)
  | curlyQuote (char : Char)
  | openString
  | openRawString
  | openRune
  | illegalRune
  | openComment
  | unknownEscape
  | openEscape
  | escapeChar (char : Char)
  | escapeCodePoint
  | invalidDigit (digit : Char) (radix : Radix)
  | noDigits (radix : Radix)
  | radixPoint (radix : Radix)
  | noExponentDigits
  | exponentNeedsDecimal (letter : Char)
  | exponentNeedsHexadecimal (letter : Char)
  | hexadecimalNeedsExponent
  | digitSeparator
  | lineNumber (text : Bytes)
  | columnNumber (text : Bytes)
deriving DecidableEq, Repr

/-- A code point by number, and by sight when it is printable. -/
def describeChar (char : Char) : Bytes :=
  let digits := (Nat.toDigits 16 char.toNat).map Char.toUpper
  let padding := List.replicate (4 - digits.length) '0'
  "U+" ++ (padding ++ digits).map byte
    ++ if Text.isPrintable char then " '" ++ Bytes.ofChar char ++ "'" else []

namespace Defect

def message : Defect → Bytes
  | nul => "illegal character NUL"
  | malformedUtf8 => "illegal UTF-8 encoding"
  | wideEncoding => "illegal UTF-8 encoding (got UTF-16)"
  | byteOrderMark => "illegal byte order mark"
  | illegalChar char => "illegal character " ++ describeChar char
  | curlyQuote char =>
    "curly quotation mark " ++ Text.Quoted.encodeRune char ++ " (use neutral '\"')"
  | openString => "string literal not terminated"
  | openRawString => "raw string literal not terminated"
  | openRune => "rune literal not terminated"
  | illegalRune => "illegal rune literal"
  | openComment => "comment not terminated"
  | unknownEscape => "unknown escape sequence"
  | openEscape => "escape sequence not terminated"
  | escapeChar char => "illegal character " ++ describeChar char ++ " in escape sequence"
  | escapeCodePoint => "escape sequence is invalid Unicode code point"
  | invalidDigit digit radix =>
    "invalid digit " ++ Text.Quoted.encodeRune digit ++ " in " ++ radix.title
  | noDigits radix => radix.title ++ " has no digits"
  | radixPoint radix => "invalid radix point in " ++ radix.title
  | noExponentDigits => "exponent has no digits"
  | exponentNeedsDecimal letter =>
    Text.Quoted.encodeRune letter ++ " exponent requires decimal mantissa"
  | exponentNeedsHexadecimal letter =>
    Text.Quoted.encodeRune letter ++ " exponent requires hexadecimal mantissa"
  | hexadecimalNeedsExponent => "hexadecimal mantissa requires a 'p' exponent"
  | digitSeparator => "'_' must separate successive digits"
  | lineNumber text => "invalid line number: " ++ text
  | columnNumber text => "invalid column number: " ++ text

end Defect

structure Fault where
  offset : Nat
  defect : Defect
deriving DecidableEq, Repr

end Source
end CaseExpansion
