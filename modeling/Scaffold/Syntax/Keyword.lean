/-!
# Keywords

Which words are identifiers.  A word is kept from being an identifier when the language uses it
or reserves it; words that have a meaning in some places only, such as `union` and `auto`, are
identifiers.
-/

namespace Scaffold.Syntax

/-- The words that are no identifiers unless they are written raw. -/
def keywords : List String :=
  ["_", "abstract", "as", "async", "await", "become", "box", "break", "const", "continue",
    "crate", "do", "dyn", "else", "enum", "extern", "false", "final", "fn", "for", "if", "impl",
    "in", "let", "loop", "macro", "match", "mod", "move", "mut", "override", "priv", "pub", "ref",
    "return", "Self", "self", "static", "struct", "super", "trait", "true", "try", "type",
    "typeof", "unsafe", "unsized", "use", "virtual", "where", "while", "yield"]

/-- Whether the plain word `name` is a keyword. -/
def isKeyword (name : String) : Bool :=
  keywords.contains name

end Scaffold.Syntax
