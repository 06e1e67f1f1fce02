/-
# Tags — a list of tags as one text

Tags are stored as one text with commas between them.  A tag that is empty or
holds a comma would not come back as it was, so a list with such a tag has no
stored form.  The empty text is the empty list.
-/
import MessageCache.Text.Split

namespace MessageCache.Tags

/-- What stands between two tags. -/
def separator : Char := ','

/-- A tag that the stored form can hold. -/
def Storable (tag : String) : Prop := tag ≠ "" ∧ separator ∉ tag.toList

instance (tag : String) : Decidable (Storable tag) := by
  unfold Storable
  infer_instance

/-- The stored form of a list of tags, or the first tag that it cannot hold. -/
def encode (tags : List String) : Except String String :=
  match tags.find? fun t => ¬ Storable t with
  | some bad => .error bad
  | none => .ok (String.ofList (Text.join separator (tags.map String.toList)))

/-- The tags of a stored form. -/
def decode (stored : String) : List String :=
  if stored = "" then [] else (Text.split separator stored.toList).map String.ofList

end MessageCache.Tags
