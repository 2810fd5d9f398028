import Mathlib.Data.List.Induction
import Mathlib.Data.List.Nodup
import Mathlib.Data.List.Perm.Subperm
import Mathlib.Data.Prod.Basic
import TypeCatalog.OrderedMap

/-! Ordered maps through their entries: two maps are equal if their entry lists are, and have the
same entries if one list is a permutation of the other. What comes of inserting one pair after the
other is told by the order of the keys and by the last value under each. -/
namespace TypeCatalog.OrderedMap

variable {κ β : Type}

theorem eq_iff_entries (m n : OrderedMap κ β) : m = n ↔ m.entries = n.entries := by
  cases m; cases n; simp

theorem nodup_keys (m : OrderedMap κ β) : m.keys.Nodup := m.nodup

theorem nodup_entries (m : OrderedMap κ β) : m.entries.Nodup := .of_map _ m.nodup

variable [DecidableEq κ]

theorem mem_upsert {key : κ} {value : β} {entries : List (κ × β)} {e : κ × β}
    (member : e ∈ upsert key value entries) : e = (key, value) ∨ e ∈ entries := by
  induction entries with
  | nil => exact .inl (List.mem_singleton.mp member)
  | cons first rest ih =>
    obtain ⟨k, v⟩ := first
    unfold upsert at member
    split at member
    · rename_i same
      rcases List.mem_cons.mp member with rfl | later
      · exact .inl (by rw [same])
      · exact .inr (List.mem_cons_of_mem _ later)
    · rcases List.mem_cons.mp member with rfl | later
      · exact .inr List.mem_cons_self
      · exact (ih later).imp_right (List.mem_cons_of_mem _)

theorem mem_keys_insert {m : OrderedMap κ β} {key : κ} {value : β} {other : κ} :
    other ∈ (m.insert key value).keys ↔ other = key ∨ other ∈ m.keys := by
  rw [keys_insert]
  split
  · rename_i known
    constructor
    · exact .inr
    · rintro (rfl | listed)
      · exact known
      · exact listed
  · rw [List.mem_append, List.mem_singleton, or_comm]

theorem upsert_of_not_mem {key : κ} {entries : List (κ × β)} (value : β)
    (fresh : key ∉ entries.map Prod.fst) :
    upsert key value entries = entries ++ [(key, value)] := by
  induction entries with
  | nil => rfl
  | cons e rest ih =>
    obtain ⟨k, v⟩ := e
    obtain ⟨ne, fresh⟩ := List.ne_and_not_mem_of_not_mem_cons fresh
    simp only [upsert, if_neg ne.symm, ih fresh, List.cons_append]

theorem upsert_append_cons {key : κ} {front : List (κ × β)} (fresh : key ∉ front.map Prod.fst)
    (old value : β) (back : List (κ × β)) :
    upsert key value (front ++ (key, old) :: back) = front ++ (key, value) :: back := by
  induction front with
  | nil => simp [upsert]
  | cons e front ih =>
    obtain ⟨k, v⟩ := e
    obtain ⟨ne, fresh⟩ := List.ne_and_not_mem_of_not_mem_cons fresh
    simp only [List.cons_append, upsert, if_neg ne.symm, ih fresh]

theorem get?_of_mem {m : OrderedMap κ β} {key : κ} {value : β} (member : (key, value) ∈ m.entries) :
    m.get? key = some value := by
  obtain ⟨entries, distinct⟩ := m
  simp only [get?] at member ⊢
  induction entries with
  | nil => cases member
  | cons e rest ih =>
    obtain ⟨k, v⟩ := e
    rw [lookup_cons_eq]
    obtain ⟨fresh, distinct⟩ := List.nodup_cons.mp distinct
    rcases List.mem_cons.mp member with same | later
    · obtain ⟨rfl, rfl⟩ := Prod.mk.inj same
      simp
    · have listed : key ∈ rest.map Prod.fst := List.mem_map.mpr ⟨_, later, rfl⟩
      rw [if_neg (ne_of_mem_of_not_mem listed fresh)]
      exact ih distinct later

theorem get?_eq_some_iff {m : OrderedMap κ β} {key : κ} {value : β} :
    m.get? key = some value ↔ (key, value) ∈ m.entries := by
  constructor
  · intro found
    obtain ⟨before, after, entries, -⟩ := List.lookup_eq_some_iff.mp found
    rw [entries]
    exact List.mem_append_right _ List.mem_cons_self
  · exact get?_of_mem

theorem mem_keys_of_get? {m : OrderedMap κ β} {key : κ} {value : β}
    (found : m.get? key = some value) : key ∈ m.keys :=
  List.mem_map.mpr ⟨_, get?_eq_some_iff.mp found, rfl⟩

theorem get?_eq_none_iff {m : OrderedMap κ β} {key : κ} : m.get? key = none ↔ key ∉ m.keys := by
  rw [Option.eq_none_iff_forall_ne_some]
  constructor
  · rintro absent listed
    obtain ⟨e, member, rfl⟩ := List.mem_map.mp listed
    exact absent e.2 (get?_of_mem member)
  · intro absent value found
    exact absent (mem_keys_of_get? found)

theorem contains_iff {m : OrderedMap κ β} {key : κ} : m.contains key = true ↔ key ∈ m.keys :=
  decide_eq_true_iff

/-- The keys in their order and the value under each make up the map. -/
theorem ext_get? {m n : OrderedMap κ β} (keys : m.keys = n.keys)
    (values : ∀ key, m.get? key = n.get? key) : m = n := by
  have listed (m : OrderedMap κ β) :
      m.entries.map (Prod.map id some) = m.keys.map fun key => (key, m.get? key) := by
    rw [OrderedMap.keys, List.map_map]
    exact List.map_congr_left fun e member => Prod.ext rfl (get?_of_mem member).symm
  have injective : Function.Injective (Prod.map id some : κ × β → κ × Option β) :=
    Function.injective_id.prodMap fun _ _ => Option.some.inj
  rw [eq_iff_entries]
  apply List.map_injective_iff.mpr injective
  rw [listed, listed, keys, funext values]

/-- A value that is there already changes nothing. -/
theorem insert_of_get? {m : OrderedMap κ β} {key : κ} {value : β}
    (found : m.get? key = some value) : m.insert key value = m := by
  apply ext_get?
  · rw [keys_insert, if_pos (mem_keys_of_get? found)]
  · intro other
    rw [get?_insert]
    split
    · rename_i same
      rw [same, found]
    · rfl

theorem insert_insert (m : OrderedMap κ β) (key : κ) (value value' : β) :
    (m.insert key value).insert key value' = m.insert key value' := by
  apply ext_get?
  · rw [keys_insert, if_pos (mem_keys_insert.mpr (.inl rfl)), keys_insert, keys_insert]
  · intro other
    rw [get?_insert, get?_insert, get?_insert]
    split <;> rfl

/-- An entry alone is the map with that entry if the map has no other key. -/
theorem empty_insert_eq_iff (m : OrderedMap κ β) (key : κ) (value : β) :
    insert ∅ key value = m.insert key value ↔ ∀ other ∈ m.keys, other = key := by
  constructor
  · intro same other member
    have listed : other ∈ (m.insert key value).keys := mem_keys_insert.mpr (.inr member)
    rw [← same, mem_keys_insert] at listed
    rcases listed with rfl | listed
    · rfl
    · cases listed
  · intro only
    rw [eq_iff_entries]
    obtain ⟨entries, distinct⟩ := m
    cases entries with
    | nil => rfl
    | cons e rest =>
      obtain ⟨k, v⟩ := e
      obtain rfl : k = key := only k (by simp [keys])
      cases rest with
      | nil => simp [insert, upsert, EmptyCollection.emptyCollection, empty]
      | cons e rest =>
        have same : e.1 = k := only e.1 (by simp [keys])
        simp [same] at distinct

theorem perm_iff_get? {m n : OrderedMap κ β} :
    m.entries.Perm n.entries ↔ ∀ key, m.get? key = n.get? key := by
  rw [List.perm_ext_iff_of_nodup m.nodup_entries n.nodup_entries]
  constructor
  · intro same key
    apply Option.ext
    intro value
    rw [get?_eq_some_iff, get?_eq_some_iff]
    exact same (key, value)
  · intro same e
    rw [← get?_eq_some_iff, ← get?_eq_some_iff, same]

theorem sameEntries_iff_perm [DecidableEq β] {m n : OrderedMap κ β} :
    m.sameEntries n = true ↔ m.entries.Perm n.entries := by
  have found : m.sameEntries n = true ↔
      m.entries.length = n.entries.length ∧ m.entries ⊆ n.entries := by
    simp only [sameEntries, size, Bool.and_eq_true, beq_iff_eq, List.all_eq_true, get?_eq_some_iff]
    rfl
  rw [found]
  constructor
  · rintro ⟨length, subset⟩
    exact (m.nodup_entries.subperm subset).perm_of_length_le (Nat.le_of_eq length.symm)
  · intro perm
    exact ⟨perm.length_eq, perm.subset⟩

theorem sameEntries_refl [DecidableEq β] (m : OrderedMap κ β) : m.sameEntries m = true :=
  sameEntries_iff_perm.mpr (.refl _)

def insertAll (m : OrderedMap κ β) (pairs : List (κ × β)) : OrderedMap κ β :=
  pairs.foldl (fun m pair => m.insert pair.1 pair.2) m

theorem insertAll_concat (m : OrderedMap κ β) (pairs : List (κ × β)) (pair : κ × β) :
    m.insertAll (pairs ++ [pair]) = (m.insertAll pairs).insert pair.1 pair.2 := by
  rw [insertAll, List.foldl_concat]
  rfl

theorem entries_insertAll (m : OrderedMap κ β) (pairs : List (κ × β))
    (distinct : ((m.entries ++ pairs).map Prod.fst).Nodup) :
    (m.insertAll pairs).entries = m.entries ++ pairs := by
  induction pairs generalizing m with
  | nil => exact (List.append_nil _).symm
  | cons pair pairs ih =>
    obtain ⟨key, value⟩ := pair
    have fresh : key ∉ m.entries.map Prod.fst := by
      rw [List.map_append, List.nodup_append] at distinct
      intro member
      exact distinct.2.2 key member key (by simp) rfl
    have appended : (m.insert key value).entries = m.entries ++ [(key, value)] :=
      upsert_of_not_mem value fresh
    rw [insertAll, List.foldl_cons, ← insertAll, ih _ (by simpa [appended] using distinct),
      appended]
    simp

theorem eraseDups_of_nodup {keys : List κ} (distinct : keys.Nodup) : keys.eraseDups = keys := by
  induction keys with
  | nil => rfl
  | cons key keys ih =>
    obtain ⟨fresh, distinct⟩ := List.nodup_cons.mp distinct
    have others : keys.filter (fun other => !other == key) = keys := by
      rw [List.filter_eq_self]
      intro other member
      simpa using ne_of_mem_of_not_mem member fresh
    rw [List.eraseDups_cons, others, ih distinct]

theorem eraseDups_concat (keys : List κ) (key : κ) :
    (keys ++ [key]).eraseDups = if key ∈ keys then keys.eraseDups else keys.eraseDups ++ [key] := by
  rw [List.eraseDups_append]
  split
  · rename_i known
    have nothing : [key].removeAll keys = [] := by simpa [List.removeAll] using known
    rw [nothing, List.eraseDups_nil, List.append_nil]
  · rename_i new
    have alone : [key].removeAll keys = [key] := by simpa [List.removeAll] using new
    rw [alone, List.eraseDups_cons, List.filter_nil, List.eraseDups_nil]

/-- The keys that were there stay in front, and a new one stays where it came first. -/
theorem keys_insertAll (m : OrderedMap κ β) (pairs : List (κ × β)) :
    (m.insertAll pairs).keys = (m.keys ++ pairs.map Prod.fst).eraseDups := by
  induction pairs using List.reverseRecOn with
  | nil =>
    rw [List.map_nil, List.append_nil]
    exact (eraseDups_of_nodup m.nodup_keys).symm
  | append_singleton pairs pair ih =>
    rw [insertAll_concat, keys_insert, ih, List.map_append, List.map_singleton,
      ← List.append_assoc, eraseDups_concat]
    simp only [List.mem_eraseDups]

theorem keys_insertAll_distinct (m : OrderedMap κ β) {pairs : List (κ × β)}
    (distinct : (pairs.map Prod.fst).Nodup) :
    (m.insertAll pairs).keys =
      m.keys ++ (pairs.map Prod.fst).filter fun key => !m.contains key := by
  have new : (pairs.map Prod.fst).removeAll m.keys =
      (pairs.map Prod.fst).filter fun key => !m.contains key := by
    simp [List.removeAll, contains]
  rw [keys_insertAll, List.eraseDups_append, eraseDups_of_nodup m.nodup_keys, new,
    eraseDups_of_nodup (distinct.filter _)]

/-- Of the values under a key the last one counts. -/
theorem get?_insertAll (m : OrderedMap κ β) (pairs : List (κ × β)) (key : κ) :
    (m.insertAll pairs).get? key = (pairs.reverse.lookup key).or (m.get? key) := by
  induction pairs using List.reverseRecOn with
  | nil => rfl
  | append_singleton pairs pair ih =>
    rw [insertAll_concat, get?_insert, ih, List.reverse_concat, lookup_cons_eq]
    split <;> rfl

theorem ofList_eq (pairs : List (κ × β)) : ofList pairs = insertAll ∅ pairs := rfl

/-- Collecting neither merges nor reorders entries whose keys are distinct. -/
theorem ofList_entries (m : OrderedMap κ β) : ofList m.entries = m := by
  rw [eq_iff_entries]
  exact entries_insertAll ∅ m.entries m.nodup

theorem keys_ofList (pairs : List (κ × β)) :
    (ofList pairs).keys = (pairs.map Prod.fst).eraseDups :=
  keys_insertAll ∅ pairs

theorem get?_ofList (pairs : List (κ × β)) (key : κ) :
    (ofList pairs).get? key = pairs.reverse.lookup key := by
  rw [ofList_eq, get?_insertAll]
  exact Option.or_none

/-- Pairs with different keys are a map of their own, so in any order they have the same values. -/
theorem lookup_perm {pairs pairs' : List (κ × β)} (distinct : (pairs.map Prod.fst).Nodup)
    (perm : pairs.Perm pairs') (key : κ) : pairs.lookup key = pairs'.lookup key := by
  let m : OrderedMap κ β := ⟨pairs, distinct⟩
  let m' : OrderedMap κ β := ⟨pairs', (perm.map _).nodup distinct⟩
  exact (perm_iff_get? (m := m) (n := m')).mp perm key

theorem get?_insertAll_perm (m : OrderedMap κ β) {pairs pairs' : List (κ × β)}
    (distinct : (pairs.map Prod.fst).Nodup) (perm : pairs.Perm pairs') (key : κ) :
    (m.insertAll pairs).get? key = (m.insertAll pairs').get? key := by
  have reversed : pairs.reverse.Perm pairs'.reverse :=
    (pairs.reverse_perm.trans perm).trans pairs'.reverse_perm.symm
  have distinct : (pairs.reverse.map Prod.fst).Nodup :=
    (pairs.reverse_perm.symm.map _).nodup distinct
  rw [get?_insertAll, get?_insertAll, lookup_perm distinct reversed]

end TypeCatalog.OrderedMap
