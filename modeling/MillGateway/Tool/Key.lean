/-! The fields of a tool, in the order in which a table line writes them. -/

namespace MillGateway.Tool

inductive Key where
  | t | p | x | y | z | a | b | c | u | v | w | d | i | j | q
  | comment
  deriving DecidableEq, Repr, Inhabited

namespace Key

def all : List Key :=
  [.t, .p, .x, .y, .z, .a, .b, .c, .u, .v, .w, .d, .i, .j, .q, .comment]

def symbol : Key → Char
  | .t => 'T' | .p => 'P' | .x => 'X' | .y => 'Y' | .z => 'Z'
  | .a => 'A' | .b => 'B' | .c => 'C' | .u => 'U' | .v => 'V' | .w => 'W'
  | .d => 'D' | .i => 'I' | .j => 'J' | .q => 'Q'
  | .comment => ';'

def ofSymbol? (c : Char) : Option Key :=
  all.find? fun k => k.symbol == c.toUpper

theorem mem_all (k : Key) : k ∈ all := by
  cases k <;> decide

theorem ofSymbol?_symbol (k : Key) : ofSymbol? k.symbol = some k := by
  cases k <;> decide

end Key

end MillGateway.Tool
