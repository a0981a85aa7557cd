import TestConversion.Syntax.Grammar

/-!
# Lexemes of Java

Names, literals, comments and the words that are nodes by themselves.
-/

namespace TestConversion.Java

open Syntax

namespace Lexeme

private def underscored (digit : Pattern) : Pattern :=
  .sepBy1 (.many1 digit) (.ofString "_")

private def digit : Pattern := .one (.among [('0', '9')])

private def hexDigit : Pattern := .one (.among [('0', '9'), ('a', 'f'), ('A', 'F')])

private def octalDigit : Pattern := .one (.among [('0', '7')])

private def binaryDigit : Pattern := .one (.among [('0', '1')])

/-- A decimal number: zero, or digits that do not start with zero, grouped by underscores. -/
private def digits : Pattern :=
  .alt (.ofString "0")
    (.seq (.one (.among [('1', '9')]))
      (.optional (.seq (.optional (.ofString "_"))
        (.sepBy1 (.many1 digit) (.many1 (.ofString "_"))))))

private def longSuffix : Pattern := .optional (.anyOf "lL")

private def floatSuffix : Pattern := .anyOf "fFdD"

private def exponent : Pattern :=
  .seqs [.anyOf "eE", .optional (.anyOf "+-"), underscored digit]

def decimalInteger : Pattern := .seq digits longSuffix

def hexInteger : Pattern :=
  .seqs [.ofString "0", .anyOf "xX", underscored hexDigit, longSuffix]

def octalInteger : Pattern :=
  .seqs [.alts [.ofString "0o", .ofString "0O", .ofString "0"], underscored octalDigit, longSuffix]

def binaryInteger : Pattern :=
  .seqs [.ofString "0", .anyOf "bB", underscored binaryDigit, longSuffix]

def decimalFloat : Pattern :=
  .alts [
    .seqs [underscored digit, .ofString ".", .optional (underscored digit), .optional exponent,
      .optional floatSuffix],
    .seqs [.ofString ".", underscored digit, .optional exponent, .optional floatSuffix],
    .seqs [digits, exponent, .optional floatSuffix],
    .seqs [digits, .optional exponent, floatSuffix]]

def hexFloat : Pattern :=
  .seqs [
    .ofString "0", .anyOf "xX",
    .alt (.seq (underscored hexDigit) (.optional (.ofString ".")))
      (.seqs [.optional (underscored hexDigit), .ofString ".", underscored hexDigit]),
    .optional (.seqs [.anyOf "eEpP", .optional (.anyOf "+-"), underscored digit,
      .optional floatSuffix])]

def character : Pattern :=
  .seqs [.ofString "'",
    .many1 (.alts [.noneOf "\\'\n", .seq (.ofString "\\") (.one (.outside []))]),
    .ofString "'"]

def escape : Pattern :=
  .seq (.ofString "\\") (.alts [
    .one (.outside [('x', 'x'), ('u', 'u'), ('0', '7')]),
    .seqs [octalDigit, .optional octalDigit, .optional octalDigit],
    .seqs [.ofString "x", hexDigit, hexDigit],
    .seqs [.ofString "u", hexDigit, hexDigit, hexDigit, hexDigit],
    .seqs [.ofString "u\x7b", .many1 hexDigit, .ofString "\x7d"]])

def identifier : Pattern := .seq (.one .identifierStart) (.star (.one .identifierPart))

def lineComment : Pattern := .seq (.ofString "//") (.star (.noneOf "\n"))

def blockComment : Pattern :=
  .seqs [.ofString "/*", .star (.noneOf "*"), .many1 (.ofString "*"),
    .star (.seqs [.noneOf "/*", .star (.noneOf "*"), .many1 (.ofString "*")]), .ofString "/"]

/-- The lexemes with names of their own. -/
def all : List Syntax.Lexeme := [
  .ofPattern "identifier" identifier,
  .ofPattern "decimal_integer_literal" decimalInteger,
  .ofPattern "hex_integer_literal" hexInteger,
  .ofPattern "octal_integer_literal" octalInteger,
  .ofPattern "binary_integer_literal" binaryInteger,
  .ofPattern "decimal_floating_point_literal" decimalFloat,
  .ofPattern "hex_floating_point_literal" hexFloat,
  .word "true" "true",
  .word "false" "false",
  .ofPattern "character_literal" character,
  { Syntax.Lexeme.ofPattern "string_fragment" (.many1 (.noneOf "\"\\")) with
    adjoining := true, rank := 1 },
  .ofPattern "_text_block_run" (.many1 (.noneOf "\"\\")),
  .ofPattern "_text_block_quote" (.seq (.ofString "\"") (.star (.noneOf "\"\\"))),
  { Syntax.Lexeme.ofPattern "_text_block_escape"
      (.seq (.ofString "\\") (.noneOf "bfnrts'\"\\")) with adjoining := true },
  { Syntax.Lexeme.ofPattern "escape_sequence" escape with adjoining := true },
  .word "null_literal" "null",
  .word "underscore_pattern" "_",
  .word "boolean_type" "boolean",
  .word "void_type" "void",
  .word "this" "this",
  .word "super" "super",
  .ofPattern "line_comment" lineComment,
  .ofPattern "block_comment" blockComment]

end Lexeme

end TestConversion.Java
