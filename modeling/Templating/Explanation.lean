/-!
# Explanations of error codes

`explain?` gives the text that explains a code to the author of a template.
-/

namespace Templating

/-- The text of some lines, each with its line end. -/
def textOfLines (lines : List String) : String := String.join (lines.map (· ++ "\n"))

/-- The codes with the lines of their explanations. -/
def explanations : List (String × List String) := [
  ("E5001", [
    "E5001: Duplicate declaration",
    "",
    "A name was declared twice in the same scope. Top-level bindings (template",
    "data and helper functions) are declared once each; injecting the same name",
    "twice is almost always a mistake in the embedding code.",
    "",
    "Fix: Rename one of the bindings, or merge the data before rendering."]),
  ("E5002", [
    "E5002: Invalid assignment target",
    "",
    "`set` and `for` can only bind plain variable names.",
    "",
    "Example:",
    "  \x7b% set user.name = \"x\" %\x7d",
    "",
    "Fix: Assign to a variable instead of a member path."]),
  ("E5003", [
    "E5003: Type error",
    "",
    "A value had the wrong type for where it was used:",
    "  - an `if` condition that is not a Boolean (no truthiness coercion)",
    "  - a `for` loop over something other than an Array",
    "  - a member access whose key is not a String",
    "",
    "Fix: Compare explicitly (`\x7b% if items.length > 0 %\x7d`) or pass the right data."]),
  ("E5004", [
    "E5004: Operation on null",
    "",
    "One operand of a binary operator was null, usually an undefined variable.",
    "",
    "Fix: Check the variable name, or provide the value in the template data."]),
  ("E5005", [
    "E5005: Unknown operator",
    "",
    "The operator is not defined for these operand types. Numbers support",
    "arithmetic and comparison, booleans support `and`, `or` and `!=`, and any",
    "other pair supports only `+` (concatenation), `==` and `!=`."]),
  ("E5006", [
    "E5006: Not callable",
    "",
    "A call expression's callee is not a function.",
    "",
    "Example:",
    "  \x7b\x7b name() \x7d\x7d   # name is a String"]),
  ("E5007", [
    "E5007: No such property",
    "",
    "The member is neither a key of the object nor a built-in of the value's type.",
    "Strings provide `upper`, `lower`, `strip`, `title` and `length`; arrays",
    "provide `length`."]),
  ("E5008", [
    "E5008: Unknown node",
    "",
    "The AST contains a node type this evaluator does not implement. The tree was",
    "probably produced by a newer parser."]),
  ("E5009", [
    "E5009: Conversion error",
    "",
    "A host value could not be converted to or from a template value, e.g. a map",
    "with non-string keys, or a function passed as an argument to a host helper."]),
  ("E5010", [
    "E5010: Invalid numeric literal",
    "",
    "A numeric literal's source text does not parse as a number."]),
  ("E5011", [
    "E5011: Arity mismatch",
    "",
    "A built-in was called with the wrong number of arguments.",
    "",
    "Example:",
    "  \x7b\x7b name.upper(1) \x7d\x7d   # upper takes no arguments"]),
  ("E5012", [
    "E5012: Host function failed",
    "",
    "A helper function supplied by the embedding application reported an error."]),
  ("E6001", ["E6001: An input file could not be read or written."]),
  ("E6002", ["E6002: The AST file is not a valid template tree."]),
  ("E6003", ["E6003: The data file is not valid JSON or TOML."]),
  ("E6004", ["E6004: The configuration file is not valid."])]

/-- The explanation of a code, which is written in capitals. -/
def explain? (code : String) : Option String := (explanations.lookup code).map textOfLines

end Templating
