namespace SuiteAtlas

structure KnownTags where
  names : List String := []
  deriving DecidableEq, Repr

namespace KnownTags

def contains (tags : KnownTags) (name : String) : Bool :=
  tags.names.contains name

/-- The tag of a name, which is registered if it is new. -/
def resolve (tags : KnownTags) (name : String) : KnownTags :=
  if tags.contains name then tags else ⟨tags.names ++ [name]⟩

def resolveAll (tags : KnownTags) (names : List String) : KnownTags :=
  names.foldl resolve tags

def clear (_ : KnownTags) : KnownTags := {}

def sorted (tags : KnownTags) : List String :=
  tags.names.mergeSort fun a b => !decide (b < a)

def size (tags : KnownTags) : Nat :=
  tags.names.length

end KnownTags

end SuiteAtlas
