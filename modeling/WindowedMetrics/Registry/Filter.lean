/-
Filters change identities, admit or refuse meters, and adjust distribution
configurations before a meter is registered.
-/
import WindowedMetrics.Distribution.Settings
import WindowedMetrics.Identity.Id
import WindowedMetrics.Registry.Event
import WindowedMetrics.Text.Ascii

namespace WindowedMetrics

/-- What a filter says about a meter; a neutral verdict leaves the decision to
the filters after it. -/
inductive Verdict
  | accept
  | deny
  | neutral
deriving Repr, DecidableEq, Inhabited

/-- The name of a verdict. -/
def Verdict.text : Verdict → String
  | accept => "accept"
  | deny => "deny"
  | neutral => "neutral"

/-- Changes to an identity; what is not given stays. -/
structure IdEdit where
  appendName : Option String
  unit : Option String
  description : Option String
  tags : Option (List Tag)
  kind : Option MeterKind

def IdEdit.apply (r : IdEdit) (id : Id) : Id where
  name := id.name ++ r.appendName.getD ""
  tags := (r.tags.map Tags.ofList).getD id.tags
  unit := r.unit.or id.unit
  description := r.description.or id.description
  kind := r.kind.getD id.kind
  parent := id.parent

/-- A limit on the values of one tag among the meters whose name starts with
`start`, with the values admitted so far. -/
structure TagLimit where
  start : String
  key : String
  limit : Nat
  admitted : List String

namespace TagLimit

/-- Whether an identity falls under the limit, and with which value. -/
def guarded? (l : TagLimit) (id : Id) : Option String :=
  if id.nameStartsWith l.start then id.tag? l.key else none

/-- Admits a value if it is known or the limit is not reached yet. -/
def judge (l : TagLimit) (id : Id) : Verdict × TagLimit :=
  match l.guarded? id with
  | none => (.neutral, l)
  | some value =>
      if l.admitted.contains value then (.neutral, l)
      else if l.limit ≤ l.admitted.length then (.deny, l)
      else (.neutral, { l with admitted := l.admitted ++ [value] })

/-- The warning about a refused identity. -/
def refusal (l : TagLimit) (id : Id) : Event :=
  ⟨.warn, "tag value limit reached; denying meter",
    [("metric_name", .text id.name), ("tag", .text l.key),
     ("max_values", .count l.limit)]⟩

end TagLimit

/-- The filters.  Each does one of the three jobs and is without effect in
the other two.  Conditions and replacements are the application's own. -/
inductive Filter
  | inert
  | commonTags (tags : Tags)
  | renameTag (start source target : String)
  | ignoreTags (keys : List String)
  | replaceTagValues (key : String) (replacement : String → String)
      (exceptions : List String)
  | edit (change : IdEdit)
  | acceptIf (test : Id → Bool)
  | denyIf (test : Id → Bool)
  | denyUnless (test : Id → Bool)
  | denyNamePatterns (patterns : List String) (ignoreCase : Bool)
  | denyKinds (mask : KindMask)
  | limitTagValues (limit : TagLimit)
  | expectMax (start : String) (value : Float)
  | expectMin (start : String) (value : Float)
  | configure (start : String) (config : DistributionSettings)
      (override : Bool)

/-- Whether a text occurs inside another. -/
def occursIn (pattern : List Char) : List Char → Bool
  | [] => pattern.isEmpty
  | c :: rest => pattern.isPrefixOf (c :: rest) || occursIn pattern rest

theorem occursIn_eq_true_iff {pattern text : List Char} :
    occursIn pattern text = true ↔ pattern <:+: text := by
  induction text with
  | nil => rw [occursIn, List.isEmpty_iff, List.infix_nil]
  | cons c rest ih =>
      rw [occursIn, Bool.or_eq_true, List.isPrefixOf_iff_prefix, ih,
        List.infix_cons_iff]

/-- Whether any of the patterns occurs in a text, letter case of ASCII letters
aside if wanted.  An automaton of Aho and Corasick over the patterns is
documented to report a match in exactly these texts; it only looks for all
patterns at once. -/
def matchesAny (patterns : List String) (ignoreCase : Bool) (text : String) :
    Bool :=
  let fold := fun (s : String) => (if ignoreCase then lowerAscii s else s)
  patterns.any fun pattern => occursIn (fold pattern).toList (fold text).toList

namespace Filter

/-- The same tags with one key renamed.  If another tag has the new key
already, the one that came later among the old keys stays. -/
def renamedTags (tags : Tags) (source target : String) : Tags :=
  Tags.ofList (tags.toList.map fun tag =>
    if tag.key = source then ⟨target, tag.value⟩ else tag)

/-- Changes an identity. -/
def map (f : Filter) (id : Id) : Id :=
  match f with
  | commonTags tags => id.withTags (tags.and id.tags.toList)
  | renameTag start source target =>
      if id.nameStartsWith start && id.tags.contains source then
        id.withTags (renamedTags id.tags source target)
      else id
  | ignoreTags keys =>
      id.withTags (Tags.ofList
        (id.tags.toList.filter fun tag => !keys.contains tag.key))
  | replaceTagValues key replacement exceptions =>
      match id.tag? key with
      | none => id
      | some value =>
          if exceptions.contains value then id
          else id.andTags [⟨key, replacement value⟩]
  | edit change => change.apply id
  | _ => id

/-- A verdict if a condition holds, and neutral otherwise. -/
def verdictIf (condition : Bool) (verdict : Verdict) : Verdict :=
  if condition then verdict else .neutral

/-- The verdict on a meter.  Only a limit on tag values remembers what it
judged. -/
def judge (f : Filter) (id : Id) : Logged (Verdict × Filter) :=
  match f with
  | acceptIf test => ⟨(verdictIf (test id) .accept, f), []⟩
  | denyIf test => ⟨(verdictIf (test id) .deny, f), []⟩
  | denyUnless test => ⟨(verdictIf (!test id) .deny, f), []⟩
  | denyNamePatterns patterns ignoreCase =>
      ⟨(verdictIf (matchesAny patterns ignoreCase id.name) .deny, f), []⟩
  | denyKinds mask => ⟨(verdictIf (mask.contains id.kind) .deny, f), []⟩
  | limitTagValues limit =>
      let (verdict, next) := limit.judge id
      let events := if verdict = .deny then [limit.refusal id] else []
      ⟨(verdict, limitTagValues next), events⟩
  | _ => ⟨(.neutral, f), []⟩

/-- Adjusts a distribution configuration. -/
def adjust (f : Filter) (id : Id) (config : DistributionSettings) :
    DistributionSettings :=
  match f with
  | expectMax start value =>
      if id.nameStartsWith start then
        { DistributionSettings.empty with max := some value }.merge config
      else config
  | expectMin start value =>
      if id.nameStartsWith start then
        { DistributionSettings.empty with min := some value }.merge config
      else config
  | configure start own override =>
      if id.nameStartsWith start then
        if override then own.merge config else config.merge own
      else config
  | _ => config

end Filter

/-- Changes an identity by every filter in turn. -/
def mapByAll (filters : List Filter) (id : Id) : Id :=
  filters.foldl (fun id filter => filter.map id) id

/-- Adjusts a configuration by every filter in turn. -/
def adjustByAll (filters : List Filter) (id : Id)
    (config : DistributionSettings) : DistributionSettings :=
  filters.foldl (fun config filter => filter.adjust id config) config

/-- Asks the filters in turn until the verdict of one is not neutral, which
decides; if none does, the meter is admitted.  The filters after the deciding
one are not asked and remember nothing. -/
def admitByAll (filters : List Filter) (id : Id) :
    Logged (Bool × List Filter) :=
  match filters with
  | [] => ⟨(true, []), []⟩
  | filter :: rest =>
      let ⟨(verdict, filter), events⟩ := filter.judge id
      match verdict with
      | .accept => ⟨(true, filter :: rest), events⟩
      | .deny => ⟨(false, filter :: rest), events⟩
      | .neutral =>
          let ⟨(admitted, rest), later⟩ := admitByAll rest id
          ⟨(admitted, filter :: rest), events ++ later⟩

end WindowedMetrics
