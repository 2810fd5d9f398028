import TypeCatalog.Proofs.Catalog.Definition

/-! Runs of upserts. Each tells whether its key was new, and where no key comes twice the order of
the upserts is seen only in the places of the new keys. -/
namespace TypeCatalog.Catalog

def putAll : Catalog → List (String × String) → List (String × Attached) × Catalog
  | c, [] => ([], c)
  | c, (key, text) :: rest =>
    let (attached, c) := c.put key text
    let (noted, c) := putAll c rest
    ((key, attached) :: noted, c)

theorem putAll_catalog (c : Catalog) (pairs : List (String × String)) :
    (c.putAll pairs).2 = c.insertAll pairs := by
  induction pairs generalizing c with
  | nil => rfl
  | cons pair rest ih => exact ih (c.insert pair.1 pair.2)

/-- A key is replaced if it was there at first or came before. -/
theorem putAll_outcome (c : Catalog) (pairs : List (String × String)) (i : Nat) :
    (c.putAll pairs).1[i]? = pairs[i]?.map fun pair =>
      (pair.1, if pair.1 ∈ c.keys ∨ pair.1 ∈ (pairs.take i).map Prod.fst
        then .replaced else .inserted) := by
  induction pairs generalizing c i with
  | nil => rfl
  | cons pair rest ih =>
    obtain ⟨key, text⟩ := pair
    cases i with
    | zero => simp [putAll, put, OrderedMap.contains]
    | succ i =>
      have later := ih (c.insert key text) i
      simp only [OrderedMap.mem_keys_insert] at later
      simp only [putAll, put, List.getElem?_cons_succ, later, List.take_succ_cons, List.map_cons,
        List.mem_cons, or_assoc, or_left_comm]

/-- Where no key comes twice, only the catalog from before decides. -/
theorem putAll_outcomes (c : Catalog) {pairs : List (String × String)}
    (distinct : (pairs.map Prod.fst).Nodup) :
    (c.putAll pairs).1 =
      pairs.map fun pair => (pair.1, if pair.1 ∈ c.keys then .replaced else .inserted) := by
  apply List.ext_getElem?
  intro i
  rw [putAll_outcome, List.getElem?_map]
  cases found : pairs[i]? with
  | none => rfl
  | some pair =>
    have fresh : pair.1 ∉ (pairs.take i).map Prod.fst := by
      obtain ⟨inside, rfl⟩ := List.getElem?_eq_some_iff.mp found
      rw [← List.take_append_drop i pairs, List.map_append, List.nodup_append] at distinct
      intro earlier
      refine distinct.2.2 _ earlier _ ?_ rfl
      rw [List.drop_eq_getElem_cons inside]
      exact List.mem_cons_self
    simp only [Option.map_some, fresh, or_false]

/-- Upserts under different keys may be made in any order: the catalogs that come of it are the same
but for the order of their entries, and each key is told to be new or not as before. The definitions
are the same exactly if the keys that are not in the catalog come in one order. -/
theorem upserts_in_any_order (c : Catalog) {pairs pairs' : List (String × String)}
    (distinct : (pairs.map Prod.fst).Nodup) (perm : pairs.Perm pairs') :
    (c.putAll pairs).2.sameEntries (c.putAll pairs').2 = true ∧
    (∀ key, (c.putAll pairs).2.get? key = (c.putAll pairs').2.get? key) ∧
    (∀ key, (c.putAll pairs).2.contains key = (c.putAll pairs').2.contains key) ∧
    (c.putAll pairs).2.size = (c.putAll pairs').2.size ∧
    (c.putAll pairs).1.Perm (c.putAll pairs').1 ∧
    ((c.putAll pairs).2.definition = (c.putAll pairs').2.definition ↔
      (pairs.map Prod.fst).filter (fun key => !c.contains key) =
        (pairs'.map Prod.fst).filter fun key => !c.contains key) := by
  have distinct' : (pairs'.map Prod.fst).Nodup := (perm.map _).nodup distinct
  rw [putAll_catalog, putAll_catalog]
  have values := c.get?_insertAll_perm distinct perm
  have entries := OrderedMap.perm_iff_get?.mpr values
  refine ⟨OrderedMap.sameEntries_iff_perm.mpr entries, values, fun key => ?_,
    entries.length_eq, ?_, ?_⟩
  · rw [Bool.eq_iff_iff, OrderedMap.contains_iff, OrderedMap.contains_iff]
    exact (entries.map Prod.fst).mem_iff
  · rw [putAll_outcomes c distinct, putAll_outcomes c distinct']
    exact perm.map _
  · -- The values are the same, so only the order of the keys is left to differ.
    have keys := c.keys_insertAll_distinct distinct
    have keys' := c.keys_insertAll_distinct distinct'
    constructor
    · intro same
      rw [definition_injective same, keys'] at keys
      exact (List.append_cancel_left keys).symm
    · intro order
      rw [order, ← keys'] at keys
      rw [OrderedMap.ext_get? keys values]

/-- The key that is known may come anywhere, the new ones keep their order or not. -/
theorem upserts_around_known_key :
    let c : Catalog := ⟨[("b", "")], by decide⟩
    let pairs := [("a", "1"), ("b", "2"), ("c", "3")]
    let moved := [("b", "2"), ("a", "1"), ("c", "3")]
    let swapped := [("c", "3"), ("b", "2"), ("a", "1")]
    (pairs.map Prod.fst).Nodup ∧ pairs.Perm moved ∧ pairs.Perm swapped ∧
      (c.putAll pairs).2.definition = (c.putAll moved).2.definition ∧
      (c.putAll pairs).2.definition ≠ (c.putAll swapped).2.definition ∧
      (c.putAll pairs).2.sameEntries (c.putAll swapped).2 = true := by
  intro c pairs moved swapped
  have distinct : (pairs.map Prod.fst).Nodup := by decide
  have perm : pairs.Perm moved := by decide
  have perm' : pairs.Perm swapped := by decide
  obtain ⟨-, -, -, -, -, order⟩ := upserts_in_any_order c distinct perm
  obtain ⟨same, -, -, -, -, order'⟩ := upserts_in_any_order c distinct perm'
  exact ⟨distinct, perm, perm', order.mpr (by decide), mt order'.mp (by decide), same⟩

end TypeCatalog.Catalog
