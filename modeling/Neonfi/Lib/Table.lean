import Mathlib.Data.List.Nodup
import Mathlib.Data.List.Find

/-!
# Tables with a unique key

`Table` is a list of rows whose keys are pairwise different, so the unique index
of the table is part of its type: a row is only ever added under a free key, and
an update may not move a row to another key.  `SerialTable` is the same for a key
drawn from a sequence.
-/

namespace Lib

/-- Rows under a unique index. -/
@[ext]
structure Table (ρ κ : Type) (key : ρ → κ) where
  rows : List ρ
  nodup : (rows.map key).Nodup

theorem nodup_map_filter {ρ κ : Type} {key : ρ → κ} {rows : List ρ} (p : ρ → Bool)
    (h : (rows.map key).Nodup) : ((rows.filter p).map key).Nodup :=
  h.sublist (List.filter_sublist.map key)

theorem nodup_map_modify {ρ κ : Type} {key : ρ → κ} {rows : List ρ} (f : ρ → ρ)
    (hf : ∀ r, key (f r) = key r) (h : (rows.map key).Nodup) :
    ((rows.map f).map key).Nodup := by
  rw [List.map_map]
  have hcomp : key ∘ f = key := funext hf
  rwa [hcomp]

theorem nodup_map_concat {ρ κ : Type} {key : ρ → κ} {rows : List ρ} {r : ρ}
    (hr : key r ∉ rows.map key) (h : (rows.map key).Nodup) :
    ((rows ++ [r]).map key).Nodup := by
  rw [List.map_append, List.map_singleton]
  exact List.Nodup.append h (List.nodup_singleton _) (by simpa using hr)

/-- Two rows of one unique index with the same key are one row. -/
theorem eq_of_key_eq {ρ κ : Type} {key : ρ → κ} {rows : List ρ} {r s : ρ}
    (h : (rows.map key).Nodup) (hr : r ∈ rows) (hs : s ∈ rows) (hk : key r = key s) :
    r = s :=
  List.inj_on_of_nodup_map h hr hs hk

namespace Table

variable {ρ κ : Type} {key : ρ → κ}

def empty : Table ρ κ key := ⟨[], List.nodup_nil⟩

@[simp] theorem rows_empty : (empty : Table ρ κ key).rows = [] := rfl

/-- Rewrite every row in place, keeping its key. -/
def modify (T : Table ρ κ key) (f : ρ → ρ) (hf : ∀ r, key (f r) = key r) : Table ρ κ key :=
  ⟨T.rows.map f, nodup_map_modify f hf T.nodup⟩

@[simp] theorem rows_modify (T : Table ρ κ key) (f : ρ → ρ) (hf : ∀ r, key (f r) = key r) :
    (T.modify f hf).rows = T.rows.map f := rfl

/-- Keep the rows that satisfy `p`. -/
def filter (T : Table ρ κ key) (p : ρ → Bool) : Table ρ κ key :=
  ⟨T.rows.filter p, nodup_map_filter p T.nodup⟩

@[simp] theorem rows_filter (T : Table ρ κ key) (p : ρ → Bool) :
    (T.filter p).rows = T.rows.filter p := rfl

/-! ### A map from keys -/

theorem sublist_keys_filterMap {α : Type} (keys : List κ) (f : κ → Option α) :
    ((keys.filterMap fun k => (f k).map fun a => (k, a)).map Prod.fst).Sublist keys := by
  induction keys with
  | nil => exact .slnil
  | cons k keys ih =>
      rw [List.filterMap_cons]
      cases f k with
      | none => exact ih.cons k
      | some a => exact ih.cons_cons k

/-- The `Map` of what `f` knows about some keys, in their order. -/
def collect {α : Type} (keys : List κ) (hkeys : keys.Nodup) (f : κ → Option α) :
    Table (κ × α) κ Prod.fst :=
  ⟨keys.filterMap fun k => (f k).map fun a => (k, a),
    hkeys.sublist (sublist_keys_filterMap keys f)⟩

variable [DecidableEq κ]

/-- Look a row up by its key. -/
def find? (T : Table ρ κ key) (k : κ) : Option ρ :=
  T.rows.find? fun r => key r = k

/-- Add a row; `none` is the unique violation. -/
def insert? (T : Table ρ κ key) (r : ρ) : Option (Table ρ κ key) :=
  if h : key r ∈ T.rows.map key then none
  else some ⟨T.rows ++ [r], nodup_map_concat h T.nodup⟩

/-- `Map.set`: replace the row under this key where it stands, else add the row last. -/
def set (T : Table ρ κ key) (r : ρ) : Table ρ κ key :=
  if h : key r ∈ T.rows.map key then
    T.modify (fun s => if key s = key r then r else s) fun s => by split <;> simp [*]
  else ⟨T.rows ++ [r], nodup_map_concat h T.nodup⟩

theorem mem_rows_set {T : Table ρ κ key} {r s : ρ} :
    s ∈ (T.set r).rows ↔ s = r ∨ s ∈ T.rows ∧ key s ≠ key r := by
  unfold set
  split
  · next h =>
      rw [rows_modify, List.mem_map]
      constructor
      · rintro ⟨t, ht, rfl⟩
        split
        · exact .inl rfl
        · next hne => exact .inr ⟨ht, hne⟩
      · rintro (rfl | ⟨hs, hne⟩)
        · obtain ⟨t, ht, hkey⟩ := List.mem_map.mp h
          exact ⟨t, ht, if_pos hkey⟩
        · exact ⟨s, hs, if_neg hne⟩
  · next h =>
      rw [List.mem_append, List.mem_singleton]
      constructor
      · rintro (hs | rfl)
        · exact .inr ⟨hs, fun hkey => h (hkey ▸ List.mem_map_of_mem hs)⟩
        · exact .inl rfl
      · rintro (rfl | ⟨hs, -⟩)
        · exact .inr rfl
        · exact .inl hs

theorem find?_eq_some_iff {T : Table ρ κ key} {k : κ} {r : ρ} :
    T.find? k = some r ↔ r ∈ T.rows ∧ key r = k := by
  constructor
  · intro h
    exact ⟨List.mem_of_find?_eq_some h, by simpa using List.find?_some h⟩
  · rintro ⟨hr, rfl⟩
    cases hs : T.find? (key r) with
    | none =>
        have hnone := List.find?_eq_none.mp hs r hr
        simp at hnone
    | some s =>
        have hmem := List.mem_of_find?_eq_some hs
        have hkey : key s = key r := by simpa using List.find?_some hs
        rw [eq_of_key_eq T.nodup hmem hr hkey]

theorem find?_eq_none_iff {T : Table ρ κ key} {k : κ} :
    T.find? k = none ↔ ∀ r ∈ T.rows, key r ≠ k := by
  simp [find?]

theorem find?_modify {T : Table ρ κ key} {f : ρ → ρ} {hf : ∀ r, key (f r) = key r} {k : κ} :
    (T.modify f hf).find? k = (T.find? k).map f := by
  have hcomp : (fun r => decide (key r = k)) ∘ f = fun r => decide (key r = k) := by
    funext r
    simp [hf]
  rw [find?, rows_modify, List.find?_map, hcomp]
  rfl

theorem rows_of_insert? {T T' : Table ρ κ key} {r : ρ} (h : T.insert? r = some T') :
    T'.rows = T.rows ++ [r] ∧ T.find? (key r) = none := by
  unfold insert? at h
  split at h
  · cases h
  · next hfree =>
      cases h
      refine ⟨rfl, find?_eq_none_iff.mpr fun s hs hk => hfree ?_⟩
      exact hk ▸ List.mem_map_of_mem hs

theorem insert?_of_find?_eq_none {T : Table ρ κ key} {r : ρ} (h : T.find? (key r) = none) :
    ∃ T', T.insert? r = some T' ∧ T'.rows = T.rows ++ [r] := by
  have hfree : key r ∉ T.rows.map key := by
    intro hmem
    obtain ⟨s, hs, hk⟩ := List.mem_map.mp hmem
    exact find?_eq_none_iff.mp h s hs hk
  exact ⟨_, dif_neg hfree, rfl⟩

/-- After a `set` its key leads to the new row, and every other key to where it led. -/
theorem find?_set {T : Table ρ κ key} {r : ρ} {k : κ} :
    (T.set r).find? k = if key r = k then some r else T.find? k := by
  split
  · next hkey => exact find?_eq_some_iff.mpr ⟨mem_rows_set.mpr (.inl rfl), hkey⟩
  · next hkey =>
      cases h : T.find? k with
      | none =>
          refine find?_eq_none_iff.mpr fun s hs => ?_
          rcases mem_rows_set.mp hs with rfl | ⟨hmem, -⟩
          · exact hkey
          · exact find?_eq_none_iff.mp h s hmem
      | some s =>
          obtain ⟨hmem, rfl⟩ := find?_eq_some_iff.mp h
          refine find?_eq_some_iff.mpr ⟨mem_rows_set.mpr (.inr ⟨hmem, ?_⟩), rfl⟩
          exact fun heq => hkey heq.symm

/-- A filter that keeps every row of a key leaves its lookup as it is. -/
theorem find?_filter {T : Table ρ κ key} {p : ρ → Bool} {k : κ}
    (hp : ∀ r, key r = k → p r = true) : (T.filter p).find? k = T.find? k := by
  cases h : T.find? k with
  | none =>
      refine find?_eq_none_iff.mpr fun s hs => ?_
      exact find?_eq_none_iff.mp h s (List.mem_of_mem_filter hs)
  | some s =>
      obtain ⟨hmem, hkey⟩ := find?_eq_some_iff.mp h
      exact find?_eq_some_iff.mpr ⟨List.mem_filter.mpr ⟨hmem, hp s hkey⟩, hkey⟩

/-! ### Counting rows -/

/-- A known row splits the rows into those before and those behind it, none under its key. -/
theorem exists_split {T : Table ρ κ key} {k : κ} {r : ρ} (h : T.find? k = some r) :
    ∃ before after, T.rows = before ++ r :: after ∧ key r = k ∧
      (∀ s ∈ before, key s ≠ k) ∧ ∀ s ∈ after, key s ≠ k := by
  obtain ⟨hmem, rfl⟩ := find?_eq_some_iff.mp h
  obtain ⟨before, after, hrows⟩ := List.append_of_mem hmem
  have hnodup := T.nodup
  rw [hrows, List.map_append, List.map_cons] at hnodup
  obtain ⟨-, hcons, hdisjoint⟩ := List.nodup_append.mp hnodup
  refine ⟨before, after, hrows, rfl, fun s hs hkey => ?_, fun s hs hkey => ?_⟩
  · exact hdisjoint (key s) (List.mem_map_of_mem hs) (key r) List.mem_cons_self hkey
  · exact (List.nodup_cons.mp hcons).1 (hkey ▸ List.mem_map_of_mem hs)

/-- At most one row has the key. -/
theorem filter_key {T : Table ρ κ key} (k : κ) :
    (T.rows.filter fun r => key r = k) = (T.find? k).toList := by
  cases hfind : T.find? k with
  | none =>
      rw [Option.toList_none, List.filter_eq_nil_iff]
      intro r hr hkey
      exact find?_eq_none_iff.mp hfind r hr (of_decide_eq_true hkey)
  | some r =>
      obtain ⟨before, after, hrows, hkey, hbefore, hafter⟩ := exists_split hfind
      have hnil : ∀ rows : List ρ, (∀ s ∈ rows, key s ≠ k) →
          (rows.filter fun s => key s = k) = [] := fun rows hne =>
        List.filter_eq_nil_iff.mpr fun s hs h => hne s hs (of_decide_eq_true h)
      rw [hrows, List.filter_append, List.filter_cons, hnil before hbefore, hnil after hafter]
      simp [hkey]

/-- Replacing a row trades its count for that of the new row. -/
theorem countP_set {T : Table ρ κ key} {r s : ρ} (h : T.find? (key s) = some r) (p : ρ → Bool) :
    (T.set s).rows.countP p + (if p r then 1 else 0) =
      T.rows.countP p + if p s then 1 else 0 := by
  obtain ⟨before, after, hrows, hkey, hbefore, hafter⟩ := exists_split h
  have hmem : key s ∈ T.rows.map key := by
    rw [hrows, ← hkey]
    simp
  have hsame : ∀ rows : List ρ, (∀ t ∈ rows, key t ≠ key s) →
      rows.map (fun t => if key t = key s then s else t) = rows := by
    intro rows hrows
    refine (List.map_congr_left fun t ht => if_neg (hrows t ht)).trans ?_
    exact List.map_id' rows
  have hset : (T.set s).rows = before ++ s :: after := by
    unfold set
    rw [dif_pos hmem, rows_modify, hrows, List.map_append, List.map_cons, if_pos hkey,
      hsame before hbefore, hsame after hafter]
  rw [hset, hrows]
  simp only [List.countP_append, List.countP_cons]
  omega

theorem length_set {T : Table ρ κ key} {r s : ρ} (h : T.find? (key s) = some r) :
    (T.set s).rows.length = T.rows.length := by
  simpa using countP_set h fun _ => true

/-- Dropping a row takes its count away. -/
theorem countP_filter_ne {T : Table ρ κ key} {k : κ} {r : ρ} (h : T.find? k = some r)
    (p : ρ → Bool) :
    (T.filter fun s => key s ≠ k).rows.countP p + (if p r then 1 else 0) = T.rows.countP p := by
  obtain ⟨before, after, hrows, hkey, hbefore, hafter⟩ := exists_split h
  have hrest : (T.filter fun s => key s ≠ k).rows = before ++ after := by
    rw [rows_filter, hrows, List.filter_append, List.filter_cons_of_neg (by simpa using hkey),
      List.filter_eq_self.mpr fun s hs => by simpa using hbefore s hs,
      List.filter_eq_self.mpr fun s hs => by simpa using hafter s hs]
  rw [hrest, hrows]
  simp only [List.countP_append, List.countP_cons]
  omega

end Table

/-- Rows numbered from a sequence that only moves forward, under a second unique
index that a row may leave empty: `uniq r = none` is the SQL `NULL`. -/
@[ext]
structure SerialTable (ρ κ : Type) (id : ρ → ℕ) (uniq : ρ → Option κ) where
  rows : List ρ
  next : ℕ
  nodup : (rows.map id).Nodup
  below : ∀ r ∈ rows, id r < next
  unique : (rows.filterMap uniq).Nodup

theorem filterMap_map_of_eq {ρ κ : Type} {uniq : ρ → Option κ} {f : ρ → ρ}
    (hf : ∀ r, uniq (f r) = uniq r) (rows : List ρ) :
    (rows.map f).filterMap uniq = rows.filterMap uniq := by
  rw [List.filterMap_map]
  have hcomp : uniq ∘ f = uniq := funext hf
  rw [hcomp]

namespace SerialTable

variable {ρ κ : Type} {id : ρ → ℕ} {uniq : ρ → Option κ}

def empty : SerialTable ρ κ id uniq :=
  ⟨[], 1, List.nodup_nil, by simp, List.nodup_nil⟩

@[simp] theorem rows_empty : (empty : SerialTable ρ κ id uniq).rows = [] := rfl

/-- Rewrite every row in place, keeping its number and its unique index. -/
def modify (T : SerialTable ρ κ id uniq) (f : ρ → ρ) (hid : ∀ r, id (f r) = id r)
    (huniq : ∀ r, uniq (f r) = uniq r) : SerialTable ρ κ id uniq where
  rows := T.rows.map f
  next := T.next
  nodup := nodup_map_modify f hid T.nodup
  below := by
    intro r hr
    obtain ⟨s, hs, rfl⟩ := List.mem_map.mp hr
    exact hid s ▸ T.below s hs
  unique := by
    rw [filterMap_map_of_eq huniq]
    exact T.unique

@[simp] theorem rows_modify (T : SerialTable ρ κ id uniq) (f : ρ → ρ)
    (hid : ∀ r, id (f r) = id r) (huniq : ∀ r, uniq (f r) = uniq r) :
    (T.modify f hid huniq).rows = T.rows.map f := rfl

@[simp] theorem next_modify (T : SerialTable ρ κ id uniq) (f : ρ → ρ)
    (hid : ∀ r, id (f r) = id r) (huniq : ∀ r, uniq (f r) = uniq r) :
    (T.modify f hid huniq).next = T.next := rfl

/-- Keep the rows that satisfy `p`; the sequence does not move back. -/
def filter (T : SerialTable ρ κ id uniq) (p : ρ → Bool) : SerialTable ρ κ id uniq where
  rows := T.rows.filter p
  next := T.next
  nodup := nodup_map_filter p T.nodup
  below := fun r hr => T.below r (List.mem_of_mem_filter hr)
  unique := T.unique.sublist (List.filter_sublist.filterMap uniq)

@[simp] theorem rows_filter (T : SerialTable ρ κ id uniq) (p : ρ → Bool) :
    (T.filter p).rows = T.rows.filter p := rfl

@[simp] theorem next_filter (T : SerialTable ρ κ id uniq) (p : ρ → Bool) :
    (T.filter p).next = T.next := rfl

/-- Look a row up by its number. -/
def find? (T : SerialTable ρ κ id uniq) (n : ℕ) : Option ρ :=
  T.rows.find? fun r => id r = n

theorem find?_eq_some_iff {T : SerialTable ρ κ id uniq} {n : ℕ} {r : ρ} :
    T.find? n = some r ↔ r ∈ T.rows ∧ id r = n :=
  Table.find?_eq_some_iff (T := ⟨T.rows, T.nodup⟩)

theorem find?_modify {T : SerialTable ρ κ id uniq} {f : ρ → ρ} {hid : ∀ r, id (f r) = id r}
    {huniq : ∀ r, uniq (f r) = uniq r} {n : ℕ} :
    (T.modify f hid huniq).find? n = (T.find? n).map f :=
  @Table.find?_modify _ _ _ _ ⟨T.rows, T.nodup⟩ _ hid _

/-- The row with the number of a known row is that row. -/
theorem eq_of_id_eq {T : SerialTable ρ κ id uniq} {r s : ρ} (hr : r ∈ T.rows)
    (hs : s ∈ T.rows) (h : id r = id s) : r = s :=
  eq_of_key_eq T.nodup hr hs h

/-- Two rows under one value of the unique index are one row. -/
theorem eq_of_uniq_eq {T : SerialTable ρ κ id uniq} {r s : ρ} {k : κ} (hr : r ∈ T.rows)
    (hs : s ∈ T.rows) (hrk : uniq r = some k) (hsk : uniq s = some k) : r = s := by
  have hall := T.unique
  rw [List.Nodup, List.pairwise_filterMap] at hall
  by_contra hne
  rcases List.pairwise_iff_getElem.mp hall with hall
  obtain ⟨i, hi, rfl⟩ := List.getElem_of_mem hr
  obtain ⟨j, hj, rfl⟩ := List.getElem_of_mem hs
  rcases lt_trichotomy i j with hij | rfl | hij
  · exact hall i j hi hj hij k hrk k hsk rfl
  · exact hne rfl
  · exact hall j i hj hi hij k hsk k hrk rfl

theorem nodup_filterMap_concat {rows : List ρ} {r : ρ} (h : (rows.filterMap uniq).Nodup)
    (hfree : ∀ k, uniq r = some k → k ∉ rows.filterMap uniq) :
    ((rows ++ [r]).filterMap uniq).Nodup := by
  rw [List.filterMap_append]
  cases hr : uniq r with
  | none => simpa [hr] using h
  | some k =>
      have hsingle : [r].filterMap uniq = [k] := by simp [hr]
      rw [hsingle]
      exact List.Nodup.append h (List.nodup_singleton _) (by simpa using hfree k hr)

variable [DecidableEq κ]

/-- Look a row up by its unique index. -/
def findUniq? (T : SerialTable ρ κ id uniq) (k : κ) : Option ρ :=
  T.rows.find? fun r => uniq r = some k

theorem findUniq?_eq_some_iff {T : SerialTable ρ κ id uniq} {k : κ} {r : ρ} :
    T.findUniq? k = some r ↔ r ∈ T.rows ∧ uniq r = some k := by
  constructor
  · intro h
    exact ⟨List.mem_of_find?_eq_some h, by simpa using List.find?_some h⟩
  · rintro ⟨hr, hk⟩
    cases hs : T.findUniq? k with
    | none =>
        have hnone := List.find?_eq_none.mp hs r hr
        simp [hk] at hnone
    | some s =>
        have hmem := List.mem_of_find?_eq_some hs
        have hkey : uniq s = some k := by simpa using List.find?_some hs
        rw [eq_of_uniq_eq hmem hr hkey hk]

theorem findUniq?_eq_none_iff {T : SerialTable ρ κ id uniq} {k : κ} :
    T.findUniq? k = none ↔ ∀ r ∈ T.rows, uniq r ≠ some k := by
  simp [findUniq?]

theorem findUniq?_modify {T : SerialTable ρ κ id uniq} {f : ρ → ρ}
    {hid : ∀ r, id (f r) = id r} {huniq : ∀ r, uniq (f r) = uniq r} {k : κ} :
    (T.modify f hid huniq).findUniq? k = (T.findUniq? k).map f := by
  unfold findUniq?
  rw [rows_modify, List.find?_map]
  have hcomp : ((fun r => decide (uniq r = some k)) ∘ f) = fun r => decide (uniq r = some k) := by
    funext r
    rw [Function.comp_apply, huniq]
  rw [hcomp]

/-- Add the row that `mk` builds from the next number of the sequence; `none` is the
unique violation. -/
def insert? (T : SerialTable ρ κ id uniq) (mk : ℕ → ρ) (hmk : ∀ n, id (mk n) = n) :
    Option (SerialTable ρ κ id uniq) :=
  if h : ∀ k, uniq (mk T.next) = some k → k ∉ T.rows.filterMap uniq then
    some
      { rows := T.rows ++ [mk T.next]
        next := T.next + 1
        nodup := by
          refine nodup_map_concat (fun hmem => ?_) T.nodup
          obtain ⟨r, hr, hk⟩ := List.mem_map.mp hmem
          have hlt := T.below r hr
          rw [hk, hmk] at hlt
          exact lt_irrefl _ hlt
        below := by
          intro r hr
          rcases List.mem_append.mp hr with hr | hr
          · exact Nat.lt_succ_of_lt (T.below r hr)
          · rw [List.mem_singleton.mp hr, hmk]
            exact Nat.lt_succ_self _
        unique := nodup_filterMap_concat T.unique h }
  else none

theorem of_insert? {T T' : SerialTable ρ κ id uniq} {mk : ℕ → ρ} {hmk : ∀ n, id (mk n) = n}
    (h : T.insert? mk hmk = some T') :
    T'.rows = T.rows ++ [mk T.next] ∧ T'.next = T.next + 1 := by
  unfold insert? at h
  split at h
  · cases h
    exact ⟨rfl, rfl⟩
  · cases h

/-- After an insertion the new row is found last. -/
theorem findUniq?_of_insert? {T T' : SerialTable ρ κ id uniq} {mk : ℕ → ρ}
    {hmk : ∀ n, id (mk n) = n} (h : T.insert? mk hmk = some T') (k : κ) :
    T'.findUniq? k =
      (T.findUniq? k).or (if uniq (mk T.next) = some k then some (mk T.next) else none) := by
  unfold findUniq?
  rw [(of_insert? h).1, List.find?_append, List.find?_singleton]
  simp only [decide_eq_true_eq]

theorem insert?_eq_none_iff {T : SerialTable ρ κ id uniq} {mk : ℕ → ρ}
    {hmk : ∀ n, id (mk n) = n} :
    T.insert? mk hmk = none ↔ ∃ k, uniq (mk T.next) = some k ∧ k ∈ T.rows.filterMap uniq := by
  unfold insert?
  split
  · next h => simpa using h
  · next h => simpa using h

/-- Rewrite one row, unless that gives it the unique index of another. -/
def update? (T : SerialTable ρ κ id uniq) (n : ℕ) (f : ρ → ρ) (hf : ∀ r, id (f r) = id r) :
    Option (SerialTable ρ κ id uniq) :=
  if h : ((T.rows.map fun r => if id r = n then f r else r).filterMap uniq).Nodup then
    some
      { rows := T.rows.map fun r => if id r = n then f r else r
        next := T.next
        nodup := nodup_map_modify _ (fun r => by split <;> simp [hf]) T.nodup
        below := by
          intro r hr
          obtain ⟨r', hr', rfl⟩ := List.mem_map.mp hr
          have hlt := T.below r' hr'
          split
          · rw [hf]
            exact hlt
          · exact hlt
        unique := h }
  else none

theorem of_update? {T T' : SerialTable ρ κ id uniq} {n : ℕ} {f : ρ → ρ}
    {hf : ∀ r, id (f r) = id r} (h : T.update? n f hf = some T') :
    T'.rows = (T.rows.map fun r => if id r = n then f r else r) ∧ T'.next = T.next := by
  unfold update? at h
  split at h
  · cases h
    exact ⟨rfl, rfl⟩
  · cases h

theorem find?_of_update? {T T' : SerialTable ρ κ id uniq} {n : ℕ} {f : ρ → ρ}
    {hf : ∀ r, id (f r) = id r} (h : T.update? n f hf = some T') (k : ℕ) :
    T'.find? k = (T.find? k).map fun r => if id r = n then f r else r := by
  unfold find?
  rw [(of_update? h).1, List.find?_map]
  congr 1
  apply congrArg (List.find? · T.rows)
  funext r
  rw [Function.comp_apply]
  split <;> simp [hf]

/-- The inserted row has the next number. -/
theorem find?_of_insert? {T T' : SerialTable ρ κ id uniq} {mk : ℕ → ρ}
    {hmk : ∀ n, id (mk n) = n} (h : T.insert? mk hmk = some T') (k : ℕ) :
    T'.find? k = (T.find? k).or (if T.next = k then some (mk T.next) else none) := by
  unfold find?
  rw [(of_insert? h).1, List.find?_append, List.find?_singleton, hmk]
  simp only [decide_eq_true_eq]

end SerialTable

end Lib
