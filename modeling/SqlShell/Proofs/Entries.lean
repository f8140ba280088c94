import Mathlib.Data.List.Basic
import Mathlib.Data.List.Induction
import SqlShell.Entries

/-!
# The first place and the last value

Writing pairs one after another leaves each key where it was first written, with the value that was
written last.
-/

set_option autoImplicit false

namespace SqlShell.Entries

variable {α : Type}

def latest (pairs : List (String × α)) : Entries α :=
  (pairs.map Prod.fst).eraseDups.filterMap fun key =>
    (pairs.reverse.lookup key).map fun value => (key, value)

theorem eraseDups_concat (keys : List String) (key : String) :
    (keys ++ [key]).eraseDups = if key ∈ keys then keys.eraseDups else keys.eraseDups ++ [key] := by
  rw [List.eraseDups_append]
  by_cases h : key ∈ keys <;> simp [List.removeAll, h, List.eraseDups_cons]

theorem nodup_eraseDups (keys : List String) : keys.eraseDups.Nodup := by
  induction keys using List.reverseRecOn with
  | nil => simp
  | append_singleton keys key ih =>
    rw [eraseDups_concat]
    split
    · exact ih
    · rename_i h
      refine List.nodup_append.mpr ⟨ih, by simp, ?_⟩
      intro a ha b hb
      rw [List.mem_eraseDups] at ha
      rintro rfl
      exact h (List.mem_singleton.mp hb ▸ ha)

def ofKeys (value? : String → Option α) (keys : List String) : Entries α :=
  keys.filterMap fun key => (value? key).map fun value => (key, value)

theorem ofKeys_cons_none {value? : String → Option α} {key : String} (h : value? key = none)
    (keys : List String) : ofKeys value? (key :: keys) = ofKeys value? keys := by
  simp [ofKeys, h]

theorem ofKeys_cons_some {value? : String → Option α} {key : String} {value : α}
    (h : value? key = some value) (keys : List String) :
    ofKeys value? (key :: keys) = (key, value) :: ofKeys value? keys := by
  simp [ofKeys, h]

theorem ofKeys_append (value? : String → Option α) (keys others : List String) :
    ofKeys value? (keys ++ others) = ofKeys value? keys ++ ofKeys value? others :=
  List.filterMap_append

theorem ofKeys_congr {f g : String → Option α} {keys : List String}
    (h : ∀ key ∈ keys, f key = g key) : ofKeys f keys = ofKeys g keys :=
  List.filterMap_congr fun key hk => by rw [h key hk]

theorem insert_ofKeys_of_notMem {value? : String → Option α} {keys : List String} {key : String}
    (value : α) (h : key ∉ keys) :
    (ofKeys value? keys).insert key value = ofKeys value? keys ++ [(key, value)] := by
  induction keys with
  | nil => rfl
  | cons k keys ih =>
    have hk : k ≠ key := fun hk => h (by simp [hk])
    have ht := ih fun hm => h (by simp [hm])
    cases hv : value? k with
    | none => rw [ofKeys_cons_none hv, ht]
    | some v => rw [ofKeys_cons_some hv, insert, if_neg hk, ht, List.cons_append]

theorem insert_ofKeys_of_mem {value? : String → Option α} {keys : List String} {key : String}
    (value : α) (h : key ∈ keys) (hn : keys.Nodup) (hs : (value? key).isSome) :
    (ofKeys value? keys).insert key value =
      ofKeys (fun k => if k = key then some value else value? k) keys := by
  induction keys with
  | nil => cases h
  | cons k keys ih =>
    obtain ⟨hk, hn⟩ := List.nodup_cons.mp hn
    by_cases he : k = key
    · subst he
      obtain ⟨v, hv⟩ := Option.isSome_iff_exists.mp hs
      rw [ofKeys_cons_some hv, ofKeys_cons_some (if_pos rfl), insert, if_pos rfl]
      congr 1
      refine ofKeys_congr fun l hl => ?_
      rw [if_neg]
      rintro rfl
      exact hk hl
    · have hm : key ∈ keys := by simpa [Ne.symm he] using h
      have ht := ih hm hn
      cases hv : value? k with
      | none => rw [ofKeys_cons_none hv, ht, ofKeys_cons_none (by rw [if_neg he, hv])]
      | some v =>
        rw [ofKeys_cons_some hv, insert, if_neg he, ht, ofKeys_cons_some (by rw [if_neg he, hv])]

theorem lookup_reverse_concat (pairs : List (String × α)) (key : String) (value : α) (k : String) :
    (pairs ++ [(key, value)]).reverse.lookup k =
      if k = key then some value else pairs.reverse.lookup k := by
  have hb : (k == key) = decide (k = key) := rfl
  by_cases h : k = key <;> simp [List.lookup_cons, hb, h]

theorem lookup_reverse_isSome {pairs : List (String × α)} {key : String}
    (h : key ∈ pairs.map Prod.fst) : (pairs.reverse.lookup key).isSome := by
  obtain ⟨pair, hp, rfl⟩ := List.mem_map.mp h
  simp only [List.lookup_isSome_iff, List.mem_reverse]
  exact ⟨pair, hp, by simp⟩

theorem latest_concat (pairs : List (String × α)) (key : String) (value : α) :
    latest (pairs ++ [(key, value)]) = (latest pairs).insert key value := by
  change ofKeys _ _ = (ofKeys _ _).insert key value
  rw [List.map_append, List.map_singleton, eraseDups_concat]
  split
  · rename_i hm
    have hs := lookup_reverse_isSome hm
    rw [insert_ofKeys_of_mem value (List.mem_eraseDups.mpr hm) (nodup_eraseDups _) hs]
    exact ofKeys_congr fun k _ => lookup_reverse_concat pairs key value k
  · rename_i hm
    rw [insert_ofKeys_of_notMem value fun h => hm (List.mem_eraseDups.mp h)]
    have hk : ofKeys (fun k => (pairs ++ [(key, value)]).reverse.lookup k)
        (pairs.map Prod.fst).eraseDups = latest pairs := by
      refine ofKeys_congr fun k hk => ?_
      rw [lookup_reverse_concat, if_neg]
      rintro rfl
      exact hm (List.mem_eraseDups.mp hk)
    have hv := lookup_reverse_concat pairs key value key
    rw [if_pos rfl] at hv
    rw [ofKeys_append, hk, ofKeys_cons_some hv]
    rfl

theorem ofPairs_eq_latest (pairs : List (String × α)) : ofPairs pairs = latest pairs := by
  induction pairs using List.reverseRecOn with
  | nil => rfl
  | append_singleton pairs pair ih =>
    rw [latest_concat, ← ih, ofPairs, List.foldl_append]
    rfl

theorem keys_ofKeys {value? : String → Option α} {keys : List String}
    (h : ∀ key ∈ keys, (value? key).isSome) : (ofKeys value? keys).map Prod.fst = keys := by
  induction keys with
  | nil => rfl
  | cons key keys ih =>
    obtain ⟨value, hv⟩ := Option.isSome_iff_exists.mp (h key List.mem_cons_self)
    rw [ofKeys_cons_some hv, List.map_cons, ih fun k hk => h k (List.mem_cons_of_mem key hk)]

theorem keys_latest (pairs : List (String × α)) :
    (latest pairs).map Prod.fst = (pairs.map Prod.fst).eraseDups :=
  keys_ofKeys fun _ hk => lookup_reverse_isSome (List.mem_eraseDups.mp hk)

theorem nodup_keys_latest (pairs : List (String × α)) : ((latest pairs).map Prod.fst).Nodup := by
  rw [keys_latest]
  exact nodup_eraseDups _

theorem mem_of_mem_latest {pairs : List (String × α)} {pair : String × α}
    (h : pair ∈ latest pairs) :
    pair ∈ pairs := by
  obtain ⟨key, _, hp⟩ := List.mem_filterMap.mp h
  obtain ⟨value, hv, rfl⟩ := Option.map_eq_some_iff.mp hp
  obtain ⟨front, back, hs, _⟩ := List.lookup_eq_some_iff.mp hv
  rw [← List.mem_reverse, hs]
  simp

theorem latest_ne_nil {pairs : List (String × α)} (h : pairs ≠ []) : latest pairs ≠ [] := by
  intro hn
  have hk := keys_latest pairs
  cases pairs with
  | nil => exact h rfl
  | cons pair pairs =>
    rw [hn, List.map_cons, List.eraseDups_cons] at hk
    cases hk

/-- Keys that are written once stay as they are written. -/
theorem latest_of_nodup {pairs : List (String × α)} (h : (pairs.map Prod.fst).Nodup) :
    latest pairs = pairs := by
  induction pairs using List.reverseRecOn with
  | nil => rfl
  | append_singleton pairs pair ih =>
    obtain ⟨key, value⟩ := pair
    rw [List.map_append, List.map_singleton, List.nodup_append] at h
    have hk : key ∉ (pairs.map Prod.fst).eraseDups := by
      rw [List.mem_eraseDups]
      exact fun hm => h.2.2 key hm key (List.mem_singleton.mpr rfl) rfl
    have hi : (latest pairs).insert key value = latest pairs ++ [(key, value)] :=
      insert_ofKeys_of_notMem value hk
    rw [latest_concat, hi, ih h.1]

theorem mem_latest_iff {pairs : List (String × α)} {key : String} {value : α} :
    (key, value) ∈ latest pairs ↔
      ∃ before after, pairs = before ++ (key, value) :: after ∧ key ∉ after.map Prod.fst := by
  have hkey : (key, value) ∈ latest pairs ↔ pairs.reverse.lookup key = some value := by
    unfold latest
    rw [List.mem_filterMap]
    constructor
    · rintro ⟨k, -, hk⟩
      obtain ⟨v, hv, he⟩ := Option.map_eq_some_iff.mp hk
      cases he
      exact hv
    · intro h
      have hm : key ∈ pairs.map Prod.fst := by
        obtain ⟨front, back, hs, -⟩ := List.lookup_eq_some_iff.mp h
        have hp : (key, value) ∈ pairs := by
          rw [← List.mem_reverse, hs]
          simp
        exact List.mem_map_of_mem hp
      exact ⟨key, List.mem_eraseDups.mpr hm, by rw [h, Option.map_some]⟩
  rw [hkey, List.lookup_eq_some_iff]
  constructor
  · rintro ⟨front, back, hs, hf⟩
    refine ⟨back.reverse, front.reverse, ?_, ?_⟩
    · have hr := congrArg List.reverse hs
      simpa using hr
    · intro hm
      obtain ⟨pair, hp, rfl⟩ := List.mem_map.mp hm
      have := hf pair (List.mem_reverse.mp hp)
      simp at this
  · rintro ⟨before, after, rfl, hk⟩
    refine ⟨after.reverse, before.reverse, by simp, fun pair hp => ?_⟩
    rw [bne_iff_ne]
    rintro rfl
    exact hk (List.mem_map_of_mem (List.mem_reverse.mp hp))

theorem exists_insert_split (key : String) (entries : Entries α) :
    ∃ front back, ∀ value, entries.insert key value = front ++ (key, value) :: back := by
  induction entries with
  | nil => exact ⟨[], [], fun value => rfl⟩
  | cons entry entries ih =>
    obtain ⟨k, v⟩ := entry
    by_cases h : k = key
    · exact ⟨[], entries, fun value => by simp [insert, h]⟩
    · obtain ⟨front, back, hs⟩ := ih
      exact ⟨(k, v) :: front, back, fun value => by simp [insert, h, hs value]⟩

theorem exists_insert_other {key k : String} (h : k ≠ key) (v : α) (front back : Entries α) :
    ∃ front' back', ∀ value,
      insert k v (front ++ (key, value) :: back) = front' ++ (key, value) :: back' := by
  induction front with
  | nil => exact ⟨[], back.insert k v, fun value => by simp [insert, Ne.symm h]⟩
  | cons entry front ih =>
    obtain ⟨l, w⟩ := entry
    by_cases hl : l = k
    · exact ⟨(l, v) :: front, back, fun value => by simp [insert, hl]⟩
    · obtain ⟨front', back', hs⟩ := ih
      exact ⟨(l, w) :: front', back', fun value => by simp [insert, hl, hs value]⟩

/-- The value that a key is last written with stands at one place, whatever it is. -/
theorem exists_latest_split (before : List (String × α)) {key : String} {after : List (String × α)}
    (h : key ∉ after.map Prod.fst) :
    ∃ front back, ∀ value,
      latest (before ++ (key, value) :: after) = front ++ (key, value) :: back := by
  induction after using List.reverseRecOn with
  | nil =>
    obtain ⟨front, back, hs⟩ := exists_insert_split key (latest before)
    exact ⟨front, back, fun value => by rw [latest_concat, hs]⟩
  | append_singleton after pair ih =>
    obtain ⟨k, v⟩ := pair
    rw [List.map_append, List.mem_append, not_or] at h
    have hk : k ≠ key := fun hk => h.2 (by simp [hk])
    obtain ⟨front, back, hs⟩ := ih h.1
    obtain ⟨front', back', hs'⟩ := exists_insert_other hk v front back
    refine ⟨front', back', fun value => ?_⟩
    rw [← List.cons_append, ← List.append_assoc, latest_concat, hs, hs']

variable {β : Type}

theorem insert_map (f : α → β) (key : String) (value : α) (entries : Entries α) :
    insert key (f value) (entries.map (Prod.map id f)) =
      (entries.insert key value).map (Prod.map id f) := by
  induction entries with
  | nil => rfl
  | cons entry entries ih =>
    obtain ⟨k, v⟩ := entry
    by_cases h : k = key
    · simp [insert, h]
    · simp [insert, h, ih]

theorem latest_map (f : α → β) (pairs : List (String × α)) :
    latest (pairs.map (Prod.map id f)) = (latest pairs).map (Prod.map id f) := by
  induction pairs using List.reverseRecOn with
  | nil => rfl
  | append_singleton pairs pair ih =>
    obtain ⟨key, value⟩ := pair
    rw [List.map_append, List.map_singleton, Prod.map_apply, id_eq, latest_concat, latest_concat]
    rw [ih, insert_map]

theorem ofPairs_map_latest (f : α → β) (pairs : List (String × α)) :
    ofPairs ((latest pairs).map (Prod.map id f)) = latest (pairs.map (Prod.map id f)) := by
  have hd : (((latest pairs).map (Prod.map id f)).map Prod.fst).Nodup := by
    have := nodup_keys_latest pairs
    rw [List.map_map]
    exact this
  rw [ofPairs_eq_latest, latest_of_nodup hd, latest_map]

/-- Names that are all written with one value. -/
theorem latest_const (value : α) (names : List String) :
    latest (names.map fun name => (name, value)) =
      names.eraseDups.map fun name => (name, value) := by
  have hv : ∀ pair ∈ latest (names.map fun name => (name, value)), id pair = (pair.1, value) := by
    intro pair hp
    obtain ⟨name, _, rfl⟩ := List.mem_map.mp (mem_of_mem_latest hp)
    rfl
  have hn : (names.map fun name => (name, value)).map Prod.fst = names := by
    rw [List.map_map]
    exact List.map_id names
  calc latest (names.map fun name => (name, value))
      = (latest (names.map fun name => (name, value))).map id := (List.map_id _).symm
    _ = (latest (names.map fun name => (name, value))).map fun pair => (pair.1, value) :=
        List.map_congr_left hv
    _ = ((latest (names.map fun name => (name, value))).map Prod.fst).map
          fun name => (name, value) := by
        rw [List.map_map]
        rfl
    _ = names.eraseDups.map fun name => (name, value) := by rw [keys_latest, hn]

end SqlShell.Entries
