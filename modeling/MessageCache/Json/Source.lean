/-
# JSON sources — what a reader meets in a text

A reader goes through a text from left to right and reports the first problem
it meets, be it a value of the wrong kind or a text that stops being JSON.  To
tell which comes first, a text is turned into a `Source`: the tree it spells,
up to the point where it breaks, with the break as a leaf of its own.

* `broken` stands where no value, key, comma or closing bracket follows; nothing
  after it in the text is kept.
* `unpaired` is a string with half a surrogate pair, and `beyondRange` a number
  no double can hold: both are problems only for a reader that wants them.
* A key is a source as well, since a text may have anything where a key belongs.
-/
import MessageCache.Json.Value

namespace MessageCache.Json

inductive Source where
  | null
  | bool (b : Bool)
  | integer (n : Int)
  | float (x : Float)
  | beyondRange
  | text (s : String)
  | unpaired
  | array (items : List Source)
  | object (members : List (Source × Source))
  | broken

/-- A text as read: its first value, and whether nothing but blanks follows. -/
structure Document where
  root : Source
  complete : Bool

namespace Source

/-- Something a key can be skipped as. -/
def isString : Source → Bool
  | .text _ => true
  | .unpaired => true
  | _ => false

mutual

/-- The source can be skipped: it breaks nowhere. -/
def wellFormed : Source → Bool
  | .array items => itemsWellFormed items
  | .object members => membersWellFormed members
  | .broken => false
  | _ => true

def itemsWellFormed : List Source → Bool
  | [] => true
  | s :: rest => s.wellFormed && itemsWellFormed rest

def membersWellFormed : List (Source × Source) → Bool
  | [] => true
  | (k, v) :: rest => k.isString && v.wellFormed && membersWellFormed rest

end

mutual

/-- The source that a written value is read as. -/
def ofValue : Value → Source
  | .null => .null
  | .bool b => .bool b
  | .integer n => .integer n
  | .text s => .text s
  | .array items => .array (ofItems items)
  | .object members => .object (ofMembers members)

def ofItems : List Value → List Source
  | [] => []
  | v :: vs => ofValue v :: ofItems vs

def ofMembers : List (String × Value) → List (Source × Source)
  | [] => []
  | (k, v) :: ms => (.text k, ofValue v) :: ofMembers ms

end

/-- The member of that name, the last one if there are several. -/
def member? (name : String) : Source → Option Source
  | .object members =>
    members.foldl (fun found (k, v) =>
      match k with
      | .text s => if s = name then some v else found
      | _ => found) none
  | _ => none

end Source

end MessageCache.Json
