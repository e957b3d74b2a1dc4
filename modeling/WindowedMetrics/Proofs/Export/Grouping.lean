/-
Points grouped into metrics, in closed form: one metric for each key, in the
order of the first points, with all points of the key in their order.  From
this follows that grouping loses and repeats nothing, and that data kept by
shape never meets a point of another shape.
-/
import WindowedMetrics.Export.Point
import Mathlib.Data.List.Induction
import Mathlib.Data.List.Perm.Basic

namespace WindowedMetrics

/-! ### Distinct keys -/

section Keys

variable {α κ : Type} [DecidableEq κ]

theorem eraseDups_append_singleton (keys : List κ) (key : κ) :
    (keys ++ [key]).eraseDups =
      if key ∈ keys then keys.eraseDups else keys.eraseDups ++ [key] := by
  rw [List.eraseDups_append]
  by_cases hkey : key ∈ keys <;>
    simp [hkey, List.removeAll, List.eraseDups_cons]

theorem nodup_eraseDups (keys : List κ) : keys.eraseDups.Nodup := by
  induction keys using List.reverseRecOn with
  | nil => simp
  | append_singleton before key ih =>
      rw [eraseDups_append_singleton]
      split
      · exact ih
      · rename_i hnew
        rw [List.nodup_append]
        refine ⟨ih, by simp, ?_⟩
        simp only [List.mem_eraseDups, List.mem_singleton]
        rintro old hold last rfl rfl
        exact hnew hold

/-- The elements of each of several keys, one key after the other, are all
elements if every key occurs, each once. -/
theorem flatMap_filter_perm (keyOf : α → κ) {keys : List κ}
    (hnodup : keys.Nodup) {elements : List α}
    (hkeys : ∀ x ∈ elements, keyOf x ∈ keys) :
    (keys.flatMap fun key =>
      elements.filter fun x => decide (keyOf x = key)).Perm elements := by
  induction keys generalizing elements with
  | nil =>
      have hnone : elements = [] :=
        List.eq_nil_iff_forall_not_mem.mpr fun x hx => by
          simpa using hkeys x hx
      simp [hnone]
  | cons key rest ih =>
      obtain ⟨hnew, hrest⟩ := List.nodup_cons.mp hnodup
      have hothers : (rest.flatMap fun other =>
          elements.filter fun x => decide (keyOf x = other)) =
          rest.flatMap fun other => (elements.filter fun x =>
            !decide (keyOf x = key)).filter fun x =>
              decide (keyOf x = other) := by
        apply List.flatMap_congr
        intro other hother
        rw [List.filter_filter]
        apply List.filter_congr
        intro x _
        have hne : other ≠ key := fun heq => hnew (heq ▸ hother)
        by_cases hx : keyOf x = other <;> simp [hx, hne]
      rw [List.flatMap_cons, hothers]
      refine List.Perm.trans ?_ (List.filter_append_perm
        (fun x => decide (keyOf x = key)) elements)
      apply List.Perm.append_left
      apply ih hrest
      intro x hx
      obtain ⟨hmem, hother⟩ := List.mem_filter.mp hx
      have hne : keyOf x ≠ key := by simpa using hother
      exact (List.mem_cons.mp (hkeys x hmem)).resolve_left hne

end Keys

/-! ### Metrics in closed form -/

/-- The metric of a key, with those of the points that belong to it. -/
def metricOf (points : List NamedPoint) (key : MetricKey) : Metric :=
  ⟨key, (points.filter fun p => decide (p.key = key)).map
    NamedPoint.point⟩

theorem metricOf_append_singleton (points : List NamedPoint)
    (p : NamedPoint) (key : MetricKey) :
    metricOf (points ++ [p]) key =
      if p.key = key then
        { metricOf points key with
          points := (metricOf points key).points ++ [p.point] }
      else metricOf points key := by
  by_cases hkey : p.key = key <;> simp [metricOf, List.filter_append, hkey]

/-- A point goes to the metric of its key, if there is one. -/
theorem insertPoint_map_metricOf (points : List NamedPoint) (p : NamedPoint)
    {keys : List MetricKey} (hnodup : keys.Nodup)
    (hnew : p.key ∉ keys → ∀ q ∈ points, q.key ≠ p.key) :
    insertPoint (keys.map (metricOf points)) p =
      (if p.key ∈ keys then keys else keys ++ [p.key]).map
        (metricOf (points ++ [p])) := by
  induction keys with
  | nil =>
      have hnone : (points.filter fun q => decide (q.key = p.key)) = [] := by
        simpa using hnew (by simp)
      simp [insertPoint, metricOf, List.filter_append, hnone]
  | cons key rest ih =>
      obtain ⟨hfresh, hrest⟩ := List.nodup_cons.mp hnodup
      simp only [List.map_cons, insertPoint]
      by_cases hkey : key = p.key
      · have hothers : rest.map (metricOf (points ++ [p])) =
            rest.map (metricOf points) := by
          apply List.map_congr_left
          intro other hother
          rw [metricOf_append_singleton, if_neg]
          rintro rfl
          exact hfresh (hkey ▸ hother)
        have hown : (metricOf points key).key = p.key := hkey
        rw [if_pos hown, if_pos (by simp [hkey]), List.map_cons, hothers,
          metricOf_append_singleton, if_pos hkey.symm]
      · have hother : (metricOf points key).key ≠ p.key := hkey
        have hmem : p.key ∈ key :: rest ↔ p.key ∈ rest := by
          simp [Ne.symm hkey]
        have hkept : metricOf (points ++ [p]) key = metricOf points key := by
          rw [metricOf_append_singleton, if_neg (Ne.symm hkey)]
        rw [if_neg hother, ih hrest fun hnone => hnew (by
          rwa [hmem])]
        by_cases hin : p.key ∈ rest <;> simp [hin, Ne.symm hkey, hkept]

/-- One metric for each key, in the order of the first points. -/
theorem groupPoints_eq (points : List NamedPoint) :
    groupPoints points =
      (points.map NamedPoint.key).eraseDups.map (metricOf points) := by
  induction points using List.reverseRecOn with
  | nil => rfl
  | append_singleton before p ih =>
      have hinsert : groupPoints (before ++ [p]) =
          insertPoint (groupPoints before) p := by
        simp [groupPoints]
      rw [hinsert, ih, insertPoint_map_metricOf before p (nodup_eraseDups _),
        List.map_append, List.map_singleton, eraseDups_append_singleton]
      · simp only [List.mem_eraseDups]
      · intro hnew q hq heq
        apply hnew
        rw [List.mem_eraseDups, ← heq]
        exact List.mem_map_of_mem hq

/-! ### What follows for the metrics -/

section Metrics

variable (points : List NamedPoint)

theorem map_key_groupPoints :
    (groupPoints points).map Metric.key =
      (points.map NamedPoint.key).eraseDups := by
  rw [groupPoints_eq, List.map_map]
  exact List.map_id' _

/-- No two metrics have the same key. -/
theorem nodup_key_groupPoints :
    ((groupPoints points).map Metric.key).Nodup := by
  rw [map_key_groupPoints]
  exact nodup_eraseDups _

/-- A metric has all points of its key, in their order. -/
theorem points_of_mem_groupPoints {g : Metric}
    (hg : g ∈ groupPoints points) :
    g.points = (points.filter fun p => decide (p.key = g.key)).map
      NamedPoint.point := by
  rw [groupPoints_eq] at hg
  obtain ⟨key, _, rfl⟩ := List.mem_map.mp hg
  rfl

/-- The points of a metric are of its shape. -/
theorem shape_of_mem_groupPoints {g : Metric}
    (hg : g ∈ groupPoints points) {p : Point} (hp : p ∈ g.points) :
    p.shape = g.key.shape := by
  rw [points_of_mem_groupPoints points hg] at hp
  obtain ⟨q, hq, rfl⟩ := List.mem_map.mp hp
  have hkey : q.key = g.key := by simpa using (List.mem_filter.mp hq).2
  rw [← hkey]
  rfl

/-- Taken together, the metrics have exactly the points, with their keys. -/
theorem groupPoints_perm :
    ((groupPoints points).flatMap fun g =>
      g.points.map fun p => (g.key, p)).Perm
      (points.map fun p => (p.key, p.point)) := by
  have hpartition := (flatMap_filter_perm NamedPoint.key
    (nodup_eraseDups (points.map NamedPoint.key))
    (fun p hp => List.mem_eraseDups.mpr (List.mem_map_of_mem hp))).map
      fun p => (p.key, p.point)
  refine List.Perm.trans (List.Perm.of_eq ?_) hpartition
  rw [groupPoints_eq, List.flatMap_map, List.map_flatMap]
  apply List.flatMap_congr
  intro key _
  rw [metricOf, List.map_map]
  apply List.map_congr_left
  intro p hp
  have hkey : p.key = key := by simpa using (List.mem_filter.mp hp).2
  simp [hkey]

end Metrics

/-- Metrics hold some points in an order of their own: each has its own key
and is not empty, and taken together they have exactly the points. -/
structure HoldPoints (metrics : List Metric) (points : List NamedPoint) :
    Prop where
  keys_nodup : (metrics.map Metric.key).Nodup
  points_ne_nil : ∀ g ∈ metrics, g.points ≠ []
  points_perm : (metrics.flatMap fun g =>
    g.points.map fun p => (g.key, p)).Perm
      (points.map fun p => (p.key, p.point))

theorem holdPoints_groupPoints (points : List NamedPoint) :
    HoldPoints (groupPoints points) points := by
  refine ⟨nodup_key_groupPoints points, ?_, groupPoints_perm points⟩
  intro g hg
  have hkey : g.key ∈ (groupPoints points).map Metric.key :=
    List.mem_map_of_mem hg
  rw [map_key_groupPoints, List.mem_eraseDups] at hkey
  obtain ⟨p, hp, hsame⟩ := List.mem_map.mp hkey
  rw [points_of_mem_groupPoints points hg]
  exact List.ne_nil_of_mem (List.mem_map_of_mem
    (List.mem_filter.mpr ⟨hp, decide_eq_true hsame⟩))

/-! ### Data kept by shape -/

/-- What a point carries.  Sums and gauges carry the same. -/
inductive Payload
  | number (point : NumberPoint)
  | histogram (point : HistogramPoint)
  | summary (point : SummaryPoint)

/-- The points of a metric, of one type for each shape. -/
inductive MetricData
  | sum (points : List NumberPoint)
  | gauge (points : List NumberPoint)
  | histogram (points : List HistogramPoint)
  | summary (points : List SummaryPoint)

def Point.payload : Point → Payload
  | sum p => .number p
  | gauge p => .number p
  | histogram p => .histogram p
  | summary p => .summary p

namespace MetricData

/-- No points of a shape. -/
def empty : Shape → MetricData
  | .sum => sum []
  | .gauge => gauge []
  | .histogram => histogram []
  | .summary => summary []

/-- Adds what a point carries; none if the data is of another type. -/
def push? : MetricData → Payload → Option MetricData
  | sum points, .number p => some (sum (points ++ [p]))
  | gauge points, .number p => some (gauge (points ++ [p]))
  | histogram points, .histogram p => some (histogram (points ++ [p]))
  | summary points, .summary p => some (summary (points ++ [p]))
  | _, _ => none

/-- The data as points. -/
def points : MetricData → List Point
  | sum points => points.map .sum
  | gauge points => points.map .gauge
  | histogram points => points.map .histogram
  | summary points => points.map .summary

def shape : MetricData → Shape
  | sum _ => .sum
  | gauge _ => .gauge
  | histogram _ => .histogram
  | summary _ => .summary

theorem shape_empty (s : Shape) : (empty s).shape = s := by
  cases s <;> rfl

theorem points_empty (s : Shape) : (empty s).points = [] := by
  cases s <;> rfl

/-- Data takes what a point of its shape carries. -/
theorem push?_payload {data : MetricData} {p : Point}
    (hshape : p.shape = data.shape) :
    ∃ next, data.push? p.payload = some next ∧
      next.shape = data.shape ∧ next.points = data.points ++ [p] := by
  cases p with
  | sum p =>
      cases data with
      | sum points => exact ⟨_, rfl, rfl, by simp [MetricData.points]⟩
      | _ => cases hshape
  | gauge p =>
      cases data with
      | gauge points => exact ⟨_, rfl, rfl, by simp [MetricData.points]⟩
      | _ => cases hshape
  | histogram p =>
      cases data with
      | histogram points => exact ⟨_, rfl, rfl, by simp [MetricData.points]⟩
      | _ => cases hshape
  | summary p =>
      cases data with
      | summary points => exact ⟨_, rfl, rfl, by simp [MetricData.points]⟩
      | _ => cases hshape

end MetricData

/-- A metric with its data by shape. -/
structure TypedMetric where
  key : MetricKey
  data : MetricData

namespace TypedMetric

def metric (g : TypedMetric) : Metric := ⟨g.key, g.data.points⟩

/-- Adds a point to the data of its metric, which is made empty if there is
none yet; none if data and point do not fit. -/
def insert? (groups : List TypedMetric) (p : NamedPoint) :
    Option (List TypedMetric) :=
  match groups with
  | [] =>
      ((MetricData.empty p.key.shape).push? p.point.payload).map
        fun data => [⟨p.key, data⟩]
  | group :: rest =>
      if group.key = p.key then
        (group.data.push? p.point.payload).map fun data =>
          { group with data := data } :: rest
      else (insert? rest p).map (group :: ·)

/-- Data and key agree on the shape. -/
def Fits (g : TypedMetric) : Prop := g.data.shape = g.key.shape

/-- A point is never refused, and data and keys go on to agree. -/
theorem insert?_eq_some {groups : List TypedMetric}
    (hfits : ∀ g ∈ groups, g.Fits) (p : NamedPoint) :
    ∃ next, insert? groups p = some next ∧ (∀ g ∈ next, g.Fits) ∧
      next.map metric = insertPoint (groups.map metric) p := by
  induction groups with
  | nil =>
      have hsame : p.point.shape = (MetricData.empty p.key.shape).shape :=
        (MetricData.shape_empty p.key.shape).symm
      obtain ⟨data, hpush, hshape, hpoints⟩ := MetricData.push?_payload hsame
      rw [MetricData.shape_empty] at hshape
      rw [MetricData.points_empty, List.nil_append] at hpoints
      refine ⟨[⟨p.key, data⟩], by simp [insert?, hpush], ?_, ?_⟩
      · simpa [Fits] using hshape
      · simp [metric, insertPoint, hpoints]
  | cons group rest ih =>
      have hgroup := hfits group List.mem_cons_self
      have hrest := fun g hg => hfits g (List.mem_cons_of_mem group hg)
      by_cases hkey : group.key = p.key
      · have hsame : p.point.shape = group.data.shape := by
          rw [hgroup, hkey]
          rfl
        obtain ⟨data, hpush, hshape, hpoints⟩ :=
          MetricData.push?_payload hsame
        refine ⟨{ group with data := data } :: rest,
          by simp [insert?, hkey, hpush], ?_, ?_⟩
        · intro g hg
          rcases List.mem_cons.mp hg with rfl | hg
          · exact hshape.trans hgroup
          · exact hrest g hg
        · simp [metric, insertPoint, hkey, hpoints]
      · obtain ⟨next, hinsert, hnext, hmetrics⟩ := ih hrest
        refine ⟨group :: next, by simp [insert?, hkey, hinsert], ?_, ?_⟩
        · intro g hg
          rcases List.mem_cons.mp hg with rfl | hg
          · exact hgroup
          · exact hnext g hg
        · have hother : (metric group).key ≠ p.key := hkey
          simp [insertPoint, hother, hmetrics]

/-- Grouping by typed data is never refused, and makes the same metrics. -/
theorem foldlM_insert? (points : List NamedPoint) :
    ∃ groups, points.foldlM insert? [] = some groups ∧
      groups.map metric = groupPoints points := by
  suffices hfrom : ∀ groups : List TypedMetric, (∀ g ∈ groups, g.Fits) →
      ∃ next, points.foldlM insert? groups = some next ∧
        next.map metric = points.foldl insertPoint (groups.map metric) by
    exact hfrom [] (by simp)
  induction points with
  | nil => exact fun groups _ => ⟨groups, rfl, rfl⟩
  | cons p rest ih =>
      intro groups hfits
      obtain ⟨next, hinsert, hnext, hmetrics⟩ := insert?_eq_some hfits p
      obtain ⟨last, hlast, hgroups⟩ := ih next hnext
      refine ⟨last, ?_, ?_⟩
      · simp [List.foldlM_cons, hinsert, hlast]
      · rw [hgroups, hmetrics, List.foldl_cons]

end TypedMetric

end WindowedMetrics
