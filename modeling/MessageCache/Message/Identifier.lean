/-
# Identifiers — the ids of new messages

A new message gets an id of twelve letters and digits, drawn at random; the
draws are an argument here.
-/

namespace MessageCache.Identifier

/-- The number of characters of an id. -/
def length : Nat := 12

/-- The characters of an id. -/
def alphabet : List Char :=
  "ABCDEFGHIJKLMNOPQRSTUVWXYZabcdefghijklmnopqrstuvwxyz0123456789".toList

theorem length_alphabet : alphabet.length = 62 := by decide

/-- The id that draws from the alphabet make. -/
def ofDraws (draw : Nat → Fin 62) : String :=
  String.ofList ((List.range length).map fun i => alphabet[(draw i).cast length_alphabet.symm])

end MessageCache.Identifier
