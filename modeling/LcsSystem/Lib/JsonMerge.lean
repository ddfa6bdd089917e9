import LcsSystem.Lib.Entries
import LcsSystem.Lib.Json

/-!
# Deep merges of JSON objects

`deepMerge base patch` puts a patch over an object: objects merge key by key, any other value replaces what was there.
What a merged value has at a path is what the patch has there, if the patch settles the path, and otherwise what the
base has (`at?_deepMerge`).
-/

namespace Json

def isDict : Json → Bool
  | dict _ => true
  | _ => false

/-- The value at a path of keys. -/
def at? : Json → List String → Option Json
  | j, [] => some j
  | dict entries, key :: path => (entries.lookup key).bind fun v => v.at? path
  | _, _ :: _ => none

mutual

def deepMerge : Json → Json → Json
  | dict base, dict patch => dict (mergeEntries base patch ++ patch.filter fun e => (base.lookup e.1).isNone)
  | _, patch => patch

/-- The entries of the base, each merged with that of the patch. -/
def mergeEntries : List (String × Json) → List (String × Json) → List (String × Json)
  | [], _ => []
  | (key, value) :: base, patch =>
    (key, match patch.lookup key with
      | some v => deepMerge value v
      | none => value) :: mergeEntries base patch

end

/-- The patch has a value at the path, or one in place of an object on the way. -/
def settles : Json → List String → Bool
  | patch, [] => !patch.isDict
  | dict entries, key :: path => (entries.lookup key).any fun v => v.settles path
  | _, _ :: _ => true

/-- Objects merge to objects. -/
theorem isDict_deepMerge {base patch : Json} (hbase : base.isDict = true) (hpatch : patch.isDict = true) :
    (deepMerge base patch).isDict = true := by
  cases base with
  | dict base =>
    cases patch with
    | dict patch =>
      rw [deepMerge]
      rfl
    | _ => cases hpatch
  | _ => cases hbase

theorem isDict_of_mem_mergeEntries {base patch : List (String × Json)} (hbase : ∀ e ∈ base, e.2.isDict = true)
    (hpatch : ∀ e ∈ patch, e.2.isDict = true) : ∀ e ∈ mergeEntries base patch, e.2.isDict = true := by
  induction base with
  | nil => exact fun e he => by cases he
  | cons b base ih =>
    obtain ⟨key, value⟩ := b
    intro e he
    rcases List.mem_cons.1 he with rfl | he
    · have hvalue := hbase (key, value) List.mem_cons_self
      dsimp only
      split
      · next v hv =>
        exact isDict_deepMerge hvalue (hpatch (key, v) (Entries.mem_of_lookup hv))
      · exact hvalue
    · exact ih (fun e he => hbase e (List.mem_cons_of_mem _ he)) e he

theorem lookup_mergeEntries (base patch : List (String × Json)) (key : String) :
    (mergeEntries base patch).lookup key = (base.lookup key).map fun value =>
      match patch.lookup key with
      | some v => deepMerge value v
      | none => value := by
  induction base with
  | nil => simp [mergeEntries]
  | cons e base ih =>
    obtain ⟨k, value⟩ := e
    by_cases h : key = k
    · subst h
      simp [mergeEntries]
    · have hne : (key == k) = false := by simpa using h
      simp [mergeEntries, List.lookup_cons, hne, ih]

/-- An entry of merged objects, from the two entries. -/
def mergedEntry : Option Json → Option Json → Option Json
  | some value, some v => some (deepMerge value v)
  | some value, none => some value
  | none, v => v

theorem lookup_deepMerge (base patch : List (String × Json)) (key : String) :
    (mergeEntries base patch ++ patch.filter fun e => (base.lookup e.1).isNone).lookup key =
      mergedEntry (base.lookup key) (patch.lookup key) := by
  rw [List.lookup_append, lookup_mergeEntries]
  cases hbase : base.lookup key with
  | none =>
    rw [Option.map_none, Option.none_or, Entries.lookup_filter_key fun k => (base.lookup k).isNone, hbase]
    rfl
  | some value => cases hpatch : patch.lookup key <;> simp [mergedEntry]

theorem deepMerge_of_not_dict {base patch : Json} (h : base.isDict = false ∨ patch.isDict = false) :
    deepMerge base patch = patch := by
  cases base <;> cases patch <;> simp_all [isDict, deepMerge]

theorem at?_of_not_settles {path : List String} : ∀ {patch : Json}, patch.settles path = false →
    (∀ v, patch.at? path = some v → v.isDict = false) → patch.at? path = none := by
  induction path with
  | nil =>
    intro patch hsettles hplain
    have := hplain patch rfl
    simp [settles, this] at hsettles
  | cons key path ih =>
    intro patch hsettles hplain
    cases patch with
    | dict entries =>
      simp only [settles, at?] at hsettles hplain ⊢
      cases hlookup : entries.lookup key with
      | none => rfl
      | some v =>
        rw [hlookup] at hsettles hplain
        exact ih hsettles hplain
    | _ => rfl

/-- An entry of the merged object, given the merges below it. -/
theorem entry_at? {path : List String} (ih : ∀ {base patch : Json}, (∀ v, patch.at? path = some v → v.isDict = false) →
      (deepMerge base patch).at? path = if patch.settles path then patch.at? path else base.at? path)
    (old new : Option Json) (hplain : ∀ v, (new.bind fun v => v.at? path) = some v → v.isDict = false) :
    ((mergedEntry old new).bind fun v => v.at? path) =
      if new.any fun v => v.settles path then new.bind fun v => v.at? path else old.bind fun v => v.at? path := by
  rcases new with _ | v
  · rcases old with _ | value <;> simp [mergedEntry]
  · rcases old with _ | value
    · cases hsettles : v.settles path with
      | true => simp [mergedEntry, hsettles]
      | false => simpa [mergedEntry, hsettles] using at?_of_not_settles hsettles hplain
    · simpa [mergedEntry] using ih hplain

/-- **Merged values.** At a path where the patch has no object, its value if it settles the path, else that of the base. -/
theorem at?_deepMerge {path : List String} : ∀ {base patch : Json},
    (∀ v, patch.at? path = some v → v.isDict = false) →
    (deepMerge base patch).at? path = if patch.settles path then patch.at? path else base.at? path := by
  induction path with
  | nil =>
    intro base patch hplain
    have hleaf := hplain patch rfl
    rw [deepMerge_of_not_dict (.inr hleaf)]
    simp [settles, hleaf, at?]
  | cons key path ih =>
    intro base patch hplain
    cases patch with
    | dict patch =>
      cases base with
      | dict base =>
        have hentry := entry_at? ih (base.lookup key) (patch.lookup key) hplain
        rw [← lookup_deepMerge] at hentry
        exact hentry
      | _ =>
        rw [deepMerge_of_not_dict (.inl rfl)]
        split
        · rfl
        · next h => exact at?_of_not_settles (by simpa using h) hplain
    | _ =>
      rw [deepMerge_of_not_dict (.inr rfl)]
      simp [settles]

/-! ## Objects in which no key stands twice -/

inductive Proper : Json → Prop
  | leaf {v : Json} (h : v.isDict = false) : Proper v
  | object {entries : List (String × Json)} (keys : (entries.map Prod.fst).Nodup) (values : ∀ e ∈ entries, Proper e.2) :
    Proper (dict entries)

theorem Proper.keys_nodup {entries : List (String × Json)} (h : Proper (.dict entries)) : (entries.map Prod.fst).Nodup := by
  cases h with
  | leaf h => cases h
  | object keys _ => exact keys

theorem Proper.of_mem {entries : List (String × Json)} (h : Proper (.dict entries)) {e : String × Json} (he : e ∈ entries) :
    Proper e.2 := by
  cases h with
  | leaf h => cases h
  | object _ values => exact values e he

theorem keys_mergeEntries (base patch : List (String × Json)) : (mergeEntries base patch).map Prod.fst = base.map Prod.fst := by
  induction base with
  | nil => rfl
  | cons e base ih => rw [mergeEntries, List.map_cons, List.map_cons, ih]

theorem of_mem_mergeEntries {base patch : List (String × Json)} {e : String × Json} (he : e ∈ mergeEntries base patch) :
    ∃ b ∈ base, b.1 = e.1 ∧ (e.2 = b.2 ∨ ∃ v, (b.1, v) ∈ patch ∧ e.2 = deepMerge b.2 v) := by
  induction base with
  | nil => cases he
  | cons b base ih =>
    rcases List.mem_cons.1 he with rfl | he
    · refine ⟨b, List.mem_cons_self, rfl, ?_⟩
      dsimp only
      split
      next v hv => exact .inr ⟨v, Entries.mem_of_lookup hv, rfl⟩
      · exact .inl rfl
    · obtain ⟨b', hb', h⟩ := ih he
      exact ⟨b', List.mem_cons_of_mem _ hb', h⟩

theorem Proper.deepMerge {base : Json} (hbase : Proper base) : ∀ {patch : Json}, Proper patch → Proper (base.deepMerge patch) := by
  induction hbase with
  | leaf h =>
    intro patch hpatch
    rwa [deepMerge_of_not_dict (.inl h)]
  | @object base keys values ih =>
    intro patch hpatch
    cases patch with
    | dict patch =>
      rw [Json.deepMerge]
      refine .object ?_ ?_
      · rw [List.map_append, keys_mergeEntries]
        refine Entries.nodup_append_absent keys hpatch.keys_nodup fun e _ he => ?_
        rw [← Entries.lookup_eq_none]
        exact Option.isNone_iff_eq_none.1 he
      · intro e he
        rcases List.mem_append.1 he with he | he
        · obtain ⟨b, hb, -, heq | ⟨v, hv, heq⟩⟩ := of_mem_mergeEntries he
          · exact heq ▸ values b hb
          · exact heq ▸ ih b hb (hpatch.of_mem hv)
        · exact hpatch.of_mem (List.mem_filter.1 he).1
    | _ => exact .leaf rfl

theorem mergeEntries_self {all entries : List (String × Json)} (hall : ∀ e ∈ entries, all.lookup e.1 = some e.2)
    (hself : ∀ e ∈ entries, deepMerge e.2 e.2 = e.2) : mergeEntries entries all = entries := by
  induction entries with
  | nil => rfl
  | cons e entries ih =>
    rw [mergeEntries, hall e List.mem_cons_self,
      ih (fun e' he => hall e' (List.mem_cons_of_mem _ he)) fun e' he => hself e' (List.mem_cons_of_mem _ he)]
    dsimp only
    rw [hself e List.mem_cons_self]

/-- A value merged into itself. -/
theorem Proper.deepMerge_self {v : Json} (h : Proper v) : v.deepMerge v = v := by
  induction h with
  | leaf h => exact deepMerge_of_not_dict (.inl h)
  | @object entries keys values ih =>
    have hlookup : ∀ e ∈ entries, entries.lookup e.1 = some e.2 := fun e he => Entries.lookup_of_mem keys he
    have hnone : entries.filter (fun e => (entries.lookup e.1).isNone) = [] := by
      rw [List.filter_eq_nil_iff]
      intro e he
      rw [hlookup e he, Option.isNone_some]
      exact Bool.false_ne_true
    rw [Json.deepMerge, mergeEntries_self hlookup ih, hnone, List.append_nil]

end Json
