/-
# Records — types with named fields, read from objects and arrays

A `RecordFormat` lists the fields of a type in their order of declaration, and
says for each its key, its type, how it is read, and whether it may be left
out.  From that alone an object is read, in whatever order its members come and
with unknown members skipped, and so is an array of the fields in order, which
may stop early where only fields that can be left out remain.

Problems come in the order of the text: a member that does not read, a key that
came before.  A missing field is only reported after the last member, the first
missing one in order of declaration.
-/
import MessageCache.Json.Reading
import MessageCache.Text.Utf8
import MessageCache.Sorting

namespace MessageCache.Json

/-! ## Members in the order in which they are visited -/

/-- The bytes of a key, by which keys are ordered. -/
def keyBytes : Source → Bytes
  | .text s => Utf8.bytes s
  | _ => []

/-- Without the members whose key comes again later. -/
def lastOfEachKey : List (Source × Source) → List (Source × Source)
  | [] => []
  | m :: rest =>
    if rest.any fun n => keyBytes n.1 = keyBytes m.1 then lastOfEachKey rest
    else m :: lastOfEachKey rest

/-- The members of an object as a reader meets them: those of a text as they
stand, those of a value in ascending order of keys, each key once. -/
def visited (origin : Origin) (members : List (Source × Source)) : List (Source × Source) :=
  match origin with
  | .document => members
  | .value => sortBy (fun a b => keyBytes a.1 ≤ keyBytes b.1) (lastOfEachKey members)

/-! ## Formats -/

/-- The format of a record with fields `F`. -/
structure RecordFormat (F : Type) where
  /-- The name of the type in a problem. -/
  title : String
  /-- The fields in order of declaration. -/
  fields : List F
  /-- The key of a field in an object. -/
  key : F → String
  /-- The type of a field. -/
  Carrier : F → Type
  /-- How a field is read. -/
  read : Origin → (f : F) → Source → Except Problem (Carrier f)
  /-- The field has to be there. -/
  required : F → Bool
  /-- What a field holds when it is left out; for a required field this is
  never used. -/
  blank : (f : F) → Carrier f

namespace RecordFormat

variable {F : Type} [DecidableEq F] (format : RecordFormat F)

/-- The fields read so far. -/
abbrev Draft := (f : F) → Option (format.Carrier f)

/-- No field read yet. -/
def emptyDraft : format.Draft := fun _ => none

variable {format}

/-- The draft with one more field. -/
def Draft.set (d : format.Draft) (f : F) (x : format.Carrier f) : format.Draft :=
  fun g => if h : f = g then some (h ▸ x) else d g

/-- The fields with what was left out filled in. -/
def Draft.filled (d : format.Draft) (f : F) : format.Carrier f := (d f).getD (format.blank f)

variable (format)

/-- The field with a key. -/
def field? (key : String) : Option F := format.fields.find? fun f => format.key f = key

/-- The members of an object, read into a draft. -/
def readMembers (origin : Origin) (d : format.Draft) :
    List (Source × Source) → Except Problem format.Draft
  | [] => .ok d
  | (.text key, v) :: rest =>
    match format.field? key with
    | none => if v.wellFormed then readMembers origin d rest else .error .malformed
    | some f =>
      if (d f).isSome then .error (.unfit s!"duplicate field `{key}`")
      else
        match format.read origin f v with
        | .error p => .error p
        | .ok x => readMembers origin (d.set f x) rest
  | _ :: _ => .error .malformed

/-- The first field of those that has to be there and is not. -/
def missing? (d : format.Draft) (fields : List F) : Option F :=
  fields.find? fun f => format.required f && (d f).isNone

/-- A draft read from an object, complete unless a required field is missing. -/
def complete (d : format.Draft) : Except Problem ((f : F) → format.Carrier f) :=
  match format.missing? d format.fields with
  | some f => .error (.unfit s!"missing field `{format.key f}`")
  | none => .ok d.filled

/-- The number of fields, in words. -/
def elementCount : String :=
  match format.fields.length with
  | 1 => "1 element"
  | n => s!"{n} elements"

/-- More items in an array than the record has fields. -/
def surplus (origin : Origin) (length : Nat) : Problem :=
  match origin with
  | .document => .malformed
  | .value => .unfit s!"invalid length {length}, expected fewer elements in array"

/-- The items of an array, read as the given fields in order.  `length` is the
number of items in the whole array and `index` that of items read so far. -/
def readItems (origin : Origin) (length index : Nat) (d : format.Draft) :
    List F → List Source → Except Problem format.Draft
  | [], [] => .ok d
  | [], _ :: _ => .error (surplus origin length)
  | f :: fs, [] =>
    match (f :: fs).findIdx? format.required with
    | some i =>
      .error (.unfit
        s!"invalid length {index + i}, expected {format.title} with {format.elementCount}")
    | none => .ok d
  | f :: fs, v :: vs =>
    match format.read origin f v with
    | .error p => .error p
    | .ok x => readItems origin length (index + 1) (d.set f x) fs vs

/-- A record: an object of its fields or an array of them. -/
def readRecord (origin : Origin) : Source → Except Problem ((f : F) → format.Carrier f)
  | .object members => do
    let d ← format.readMembers origin format.emptyDraft (visited origin members)
    format.complete d
  | .array items => do
    let d ← format.readItems origin items.length 0 format.emptyDraft format.fields items
    return d.filled
  | s => .error (s.mismatch format.title)

end RecordFormat

end MessageCache.Json
