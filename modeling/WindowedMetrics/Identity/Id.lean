/-
Meter identities.  Name and tags tell meters apart; unit, description, kind
and an associated parent only describe them.
-/
import WindowedMetrics.Identity.Kind
import WindowedMetrics.Identity.Tags

namespace WindowedMetrics

/-- What a registry tells meters apart by. -/
structure MeterKey where
  name : String
  tags : Tags
deriving DecidableEq

/-- The full description of a meter.  A meter with a `parent` was derived from
it and is removed together with it. -/
structure Id where
  name : String
  tags : Tags
  unit : Option String
  description : Option String
  kind : MeterKind
  parent : Option Id

namespace Id

/-- A bare identity of unspecific kind. -/
def named (name : String) (tags : List Tag) : Id :=
  ⟨name, Tags.ofList tags, none, none, .custom, none⟩

instance : Inhabited Id := ⟨.named "" []⟩

/-- Name and tags alone. -/
def key (id : Id) : MeterKey := ⟨id.name, id.tags⟩

def withName (id : Id) (name : String) : Id := { id with name := name }

def withTags (id : Id) (tags : Tags) : Id := { id with tags := tags }

/-- Adds tags; new values replace old ones. -/
def andTags (id : Id) (tags : List Tag) : Id :=
  { id with tags := id.tags.and tags }

def withUnit (id : Id) (unit : String) : Id := { id with unit := some unit }

def withDescription (id : Id) (description : String) : Id :=
  { id with description := some description }

def withKind (id : Id) (kind : MeterKind) : Id := { id with kind := kind }

def withParent (id : Id) (parent : Id) : Id :=
  { id with parent := some parent }

/-- The value of a tag. -/
def tag? (id : Id) (key : String) : Option String := id.tags.get? key

/-- Whether the name starts with a text. -/
def nameStartsWith (id : Id) (start : String) : Bool :=
  start.toList.isPrefixOf id.name.toList

/-- The name, followed by the tags in braces if there are any. -/
def text (id : Id) : String :=
  if id.tags.isEmpty then id.name
  else
    let tags := id.tags.toList.map fun tag => tag.key ++ "=" ++ tag.value
    id.name ++ "\x7b" ++ ",".intercalate tags ++ "\x7d"

end Id

end WindowedMetrics
