import TypeCatalog.Json.Shape
import TypeCatalog.Proofs.Json.Joints
import TypeCatalog.Proofs.Json.Skipping

/-! Where values end and where they are refused. Whatever is wanted of a text, a value that begins
at a joint ends at one, and what is objected to lies in the text. -/
namespace TypeCatalog.Json

section Numbers

variable {text s r rest ds : List Char} {cause : Cause} {f : Fault}

theorem absorb_suffix (limit n : Nat) (ds : List Char) : (absorb limit n ds).2 <:+ ds := by
  induction ds generalizing n with
  | nil => exact List.suffix_rfl
  | cons d ds ih =>
    unfold absorb
    dsimp only
    split
    · exact (ih _).trans (List.suffix_cons d ds)
    · exact List.suffix_rfl

theorem digits_of_scanExponent {down : Bool}
    (scans : scanExponent cause s = .ok (some (down, ds), r)) :
    (∀ d ∈ ds, d.isDigit = true) ∧ ds ++ r <:+ s := by
  unfold scanExponent at scans
  split at scans
  · cases scans
  · rename_i e t
    split at scans
    · split at scans
      · cases scans
      · rename_i negative c u signed
        split at scans
        · rename_i digit
          cases scans
          obtain ⟨sign, -, rfl⟩ := sign_of_dropSign signed
          constructor
          · intro d member
            rcases List.mem_cons.mp member with rfl | member
            · exact digit
            · exact List.mem_takeWhile_imp member
          · rw [List.cons_append, List.takeWhile_append_dropWhile]
            exact (List.suffix_append sign _).trans (List.suffix_cons e _)
        · cases scans
    · cases scans

/-- The digits of the exponent stand at the end of the number. -/
theorem digits_of_scanNumeral {n : Numeral} {down : Bool} (scans : scanNumeral cause s = .ok (n, r))
    (written : n.exponent? = some (down, ds)) :
    (∀ d ∈ ds, d.isDigit = true) ∧ ds ++ r <:+ s := by
  simp only [scanNumeral, bind, Except.bind, pure, Except.pure] at scans
  split at scans
  · cases scans
  · rename_i first
    split at scans
    · cases scans
    · rename_i second
      split at scans
      · cases scans
      · rename_i last third
        obtain ⟨exponent?, _⟩ := last
        cases scans
        subst written
        obtain ⟨digits, suffix⟩ := digits_of_scanExponent third
        have whole := (whole_of_scanWhole first).suffix
        have front := (fraction_of_scanFraction second).suffix.trans whole
        exact ⟨digits, suffix.trans front⟩

theorem compose_fault {negative : Bool} {significand : Nat} {e : Int} (joint : Joint text rest)
    (refused : compose negative significand e rest = .error f) : f.In text := by
  unfold compose at refused
  split at refused
  · cases refused
    exact joint.before (by simp)
  · cases refused

/-- An exponent out of range is seen at one of its digits. -/
theorem Numeral.number_fault {n : Numeral} {negative : Bool} (joint : Joint text rest)
    (exponent : ∀ down ds, n.exponent? = some (down, ds) →
      (∀ d ∈ ds, d.isDigit = true) ∧ ds ++ rest <:+ text)
    (refused : n.number negative rest = .error f) : f.In text := by
  unfold number at refused
  dsimp only at refused
  split at refused
  · rename_i down ds written
    split at refused
    · exact compose_fault joint refused
    · rename_i d digits absorbed
      split at refused
      · cases refused
        obtain ⟨all_digits, suffix⟩ := exponent down ds written
        have left := absorb_suffix greatestExponent 0 ds
        rw [absorbed] at left
        have digit := all_digits d (left.subset List.mem_cons_self)
        have further : d :: (digits ++ rest) <:+ ds ++ rest := by
          obtain ⟨taken, rfl⟩ := left
          exact ⟨taken, by simp⟩
        exact Joint.before (.behind (utf8Size_of_isDigit digit) (further.trans suffix)) (by simp)
      · cases refused
  · split at refused
    · exact compose_fault joint refused
    · split at refused
      · cases refused
      · split at refused
        · cases refused
        · exact compose_fault joint refused

theorem readNumber_placed {negative : Bool} (joint : Joint text s) :
    Placed text Prod.snd (readNumber negative s) := by
  have numeral : Placed text Prod.snd (scanNumeral .endInValue s) :=
    scanNumeral_placed joint (by simp)
  simp only [readNumber, bind, Except.bind, pure, Except.pure]
  split
  · rename_i refused
    exact numeral.fault refused
  · rename_i scans
    have behind := numeral.joint scans
    split
    · rename_i refused
      apply Numeral.number_fault behind _ refused
      intro down ds written
      obtain ⟨digits, suffix⟩ := digits_of_scanNumeral scans written
      exact ⟨digits, suffix.trans joint.suffix⟩
    · exact behind

theorem skipNumber_placed (joint : Joint text s) : Placed text id (skipNumber s) := by
  have numeral : Placed text Prod.snd (scanNumeral .invalidNumber s) :=
    scanNumeral_placed joint (by simp)
  exact numeral.map fun _ => rfl

end Numbers

section Skipping

variable {text s : List Char}

theorem skipKey_placed (joint : Joint text s) : Placed text id (skipKey s) := by
  unfold skipKey
  split
  · rename_i skips
    have string := skipString_placed (joint.behind_mark skips rfl).suffix
    split
    · rename_i refused
      exact string.fault refused
    · rename_i read
      exact readColon_placed (string.joint read)
  · rename_i skips
    exact (joint.skipped skips).next (by simp)
  · exact joint.skipBlank.next (by simp)

theorem skipScalar_placed (joint : Joint text s) : Placed text id (skipScalar s) := by
  unfold skipScalar
  split
  · exact joint.next (by simp)
  · exact skipString_placed (Joint.behind rfl joint.suffix).suffix
  · exact readLetters_placed (by decide) (.behind rfl joint.suffix)
  · exact readLetters_placed (by decide) (.behind rfl joint.suffix)
  · exact readLetters_placed (by decide) (.behind rfl joint.suffix)
  · exact skipNumber_placed (.behind rfl joint.suffix)
  · split
    · exact skipNumber_placed joint
    · exact joint.next (by simp)

end Skipping

mutual

theorem skipValue_placed {text s : List Char} (around : List Container) (joint : Joint text s) :
    Placed text id (skipValue around s) := by
  have shorter := length_skipBlank_le s
  unfold skipValue
  split
  · rename_i r opened
    have openedLength := length_lt_of_skipBlank opened
    have innerLength := length_skipBlank_le r
    have inside := joint.behind_mark opened rfl
    split
    · rename_i t ended
      have endedLength := length_lt_of_skipBlank ended
      exact skipRest_placed around (inside.behind_mark ended rfl)
    · rename_i ended
      exact (inside.skipped ended).next (by simp)
    · exact skipValue_placed _ inside.skipBlank
  · rename_i r opened
    have openedLength := length_lt_of_skipBlank opened
    have innerLength := length_skipBlank_le r
    have inside := joint.behind_mark opened rfl
    split
    · rename_i t ended
      have endedLength := length_lt_of_skipBlank ended
      exact skipRest_placed around (inside.behind_mark ended rfl)
    · have key := skipKey_placed inside.skipBlank
      split
      · rename_i refused
        exact key.fault refused
      · rename_i u keyed
        have keyLength := length_lt_of_skipKey keyed
        exact skipValue_placed _ (key.joint keyed)
  · have scalar := skipScalar_placed joint.skipBlank
    split
    · rename_i refused
      exact scalar.fault refused
    · rename_i u read
      have scalarLength := length_lt_of_skipScalar read
      exact skipRest_placed around (scalar.joint read)
termination_by s.length
decreasing_by all_goals omega

theorem skipRest_placed {text s : List Char} (around : List Container) (joint : Joint text s) :
    Placed text id (skipRest around s) := by
  have shorter := length_skipBlank_le s
  unfold skipRest
  split
  · exact joint
  · split
    · rename_i r comma
      have commaLength := length_lt_of_skipBlank comma
      exact skipValue_placed _ (joint.behind_mark comma rfl)
    · rename_i r ended
      have endedLength := length_lt_of_skipBlank ended
      exact skipRest_placed _ (joint.behind_mark ended rfl)
    · rename_i ended
      exact (joint.skipped ended).next (by simp)
    · exact joint.skipBlank.next (by simp)
  · split
    · rename_i r comma
      have commaLength := length_lt_of_skipBlank comma
      have key := skipKey_placed (joint.behind_mark comma rfl)
      split
      · rename_i refused
        exact key.fault refused
      · rename_i u keyed
        have keyLength := length_lt_of_skipKey keyed
        exact skipValue_placed _ (key.joint keyed)
    · rename_i r ended
      have endedLength := length_lt_of_skipBlank ended
      exact skipRest_placed _ (joint.behind_mark ended rfl)
    · rename_i ended
      exact (joint.skipped ended).next (by simp)
    · exact joint.skipBlank.next (by simp)
termination_by s.length
decreasing_by all_goals omega

end

section Wanted

variable {text s : List Char}

/-- What is not wanted is objected to behind it, or before it if it holds other values. -/
theorem unexpected_in (expected : String) (joint : Joint text s) :
    (unexpected expected s).In text := by
  have after {α : Type} {found : α → Found} {result : Except Fault (α × List Char)}
      (placed : Placed text Prod.snd result) :
      (unexpected.after expected found result).In text := by
    unfold unexpected.after
    split
    · exact placed
    · exact Joint.before placed (by simp)
  have word {w r : List Char} (narrow : w.all (·.utf8Size == 1) = true) (behind : Joint text r) :
      Placed text Prod.snd ((readLetters w r).map ((), ·)) :=
    (readLetters_placed narrow behind).map fun _ => rfl
  unfold unexpected
  split
  · exact joint.next (by simp)
  · exact after (word (by decide) (.behind rfl joint.suffix))
  · exact after (word (by decide) (.behind rfl joint.suffix))
  · exact after (word (by decide) (.behind rfl joint.suffix))
  · exact after (readNumber_placed (.behind rfl joint.suffix))
  · exact after (readString_placed (Joint.behind rfl joint.suffix).suffix)
  · exact joint.before (by simp)
  · exact joint.before (by simp)
  · split
    · exact after (readNumber_placed joint)
    · exact joint.next (by simp)

theorem nextItem_placed (first : Bool) (joint : Joint text s) :
    Placed text Prod.snd (nextItem first s) := by
  unfold nextItem
  split
  · rename_i skips
    exact (joint.skipped skips).next (by simp)
  · rename_i skips
    exact joint.skipped skips
  · rename_i c r _ skips
    split
    · exact joint.skipped skips
    · split
      · rename_i comma
        have behind := joint.behind_mark skips (comma ▸ rfl)
        split
        · rename_i ended
          exact (behind.skipped ended).next (by simp)
        · rename_i ended
          exact (behind.skipped ended).next (by simp)
        · exact behind.skipBlank
      · exact (joint.skipped skips).next (by simp)

theorem nextQuote_placed (first : Bool) (joint : Joint text s) :
    Placed text Prod.snd (nextQuote first s) := by
  unfold nextQuote
  split
  · rename_i skips
    exact (joint.skipped skips).next (by simp)
  · rename_i skips
    exact joint.skipped skips
  · rename_i c r _ skips
    split
    · split
      · rename_i quote
        exact joint.behind_mark skips (quote ▸ rfl)
      · exact (joint.skipped skips).next (by simp)
    · split
      · rename_i comma
        have behind := joint.behind_mark skips (comma ▸ rfl)
        split
        · rename_i ended
          exact (behind.skipped ended).next (by simp)
        · rename_i quoted
          exact behind.behind_mark quoted rfl
        · rename_i ended
          exact (behind.skipped ended).next (by simp)
        · exact behind.skipBlank.next (by simp)
      · exact (joint.skipped skips).next (by simp)

theorem nextKey_placed (first : Bool) (joint : Joint text s) :
    Placed text Prod.snd (nextKey first s) := by
  have quote := nextQuote_placed first joint
  unfold nextKey
  split
  · rename_i refused
    exact quote.fault refused
  · rename_i ended
    exact quote.joint ended
  · rename_i opened
    have key := readString_placed (quote.joint opened).suffix
    split
    · rename_i refused
      exact key.fault refused
    · rename_i read
      exact key.joint read

end Wanted

/-- Wherever the reader begins at a joint, it ends at one or finds a fault in the text. -/
def Reader.Places {α : Type} (reader : Reader α) : Prop :=
  ∀ ⦃text s : List Char⦄, Joint text s → Placed text Prod.snd (reader.read s)

def Contents.Places {α : Type} (contents : Contents α) : Prop :=
  ∀ ⦃text s : List Char⦄, Joint text s → Placed text Prod.snd (contents.read s)

section Containers

variable {α β σ : Type} {text s : List Char} {item : Reader α}

theorem Reader.Places.items (places : item.Places) (first : Bool) (joint : Joint text s) :
    Placed text Prod.snd (items item first s) := by
  fun_induction Json.items item first s with
  | case1 first s f refused => exact (nextItem_placed first joint).fault refused
  | case2 first s r ended => exact (nextItem_placed first joint).joint ended
  | case3 first s r next f refused =>
    exact (places ((nextItem_placed first joint).joint next)).fault refused
  | case4 first s r next a t read f refused ih =>
    have behind := (places ((nextItem_placed first joint).joint next)).joint read
    exact (ih behind).fault refused
  | case5 first s r next a t read as u others ih =>
    have behind := (places ((nextItem_placed first joint).joint next)).joint read
    have ends : Joint text u := (ih behind).joint others
    exact ends

theorem Reader.Places.item? (places : item.Places) (first : Bool) (joint : Joint text s) :
    Placed text Prod.snd (item? item first s) := by
  have next := nextItem_placed first joint
  unfold Json.item?
  split
  · rename_i refused
    exact next.fault refused
  · rename_i ended
    exact next.joint ended
  · rename_i more
    exact (places (next.joint more)).map fun _ => rfl

theorem members_placed {choose : σ → String → Except Mismatch (Reader σ)}
    (places : ∀ state key value, choose state key = .ok value → value.Places) (first : Bool)
    (state : σ) (joint : Joint text s) : Placed text Prod.snd (members choose first state s) := by
  fun_induction members choose first state s with
  | case1 first state s f refused => exact (nextKey_placed first joint).fault refused
  | case2 first state s r ended => exact (nextKey_placed first joint).joint ended
  | case3 first state s key r keyed m refused =>
    exact ((nextKey_placed first joint).joint keyed).pastObject.before (by simp)
  | case4 first state s key r keyed value chosen f refused =>
    exact (readColon_placed ((nextKey_placed first joint).joint keyed)).fault refused
  | case5 first state s key r keyed value chosen t colon f refused =>
    have behind := (readColon_placed ((nextKey_placed first joint).joint keyed)).joint colon
    exact (places _ _ _ chosen behind).fault refused
  | case6 first state s key r keyed value chosen t colon final u read ih =>
    have behind := (readColon_placed ((nextKey_placed first joint).joint keyed)).joint colon
    exact ih ((places _ _ _ chosen behind).joint read)

end Containers

namespace Reader

variable {α β : Type} {reader : Reader α}

theorem Places.map (places : reader.Places) (f : α → β) : (reader.map f).Places :=
  fun _ _ joint => (places joint).map fun _ => rfl

theorem ignored_places : ignored.Places :=
  fun _ _ joint => (skipValue_placed [] joint).map fun _ => rfl

theorem string_places : string.Places := by
  intro text s joint
  simp only [string]
  split
  · rename_i opened
    exact (readString_placed (joint.behind_mark opened rfl).suffix).map fun _ => rfl
  · exact unexpected_in _ joint.skipBlank

theorem boolean_places : boolean.Places := by
  intro text s joint
  simp only [boolean]
  split
  · rename_i opened
    exact (readLetters_placed (by decide) (joint.behind_mark opened rfl)).map fun _ => rfl
  · rename_i opened
    exact (readLetters_placed (by decide) (joint.behind_mark opened rfl)).map fun _ => rfl
  · exact unexpected_in _ joint.skipBlank

theorem Places.orNull (places : reader.Places) : reader.orNull.Places := by
  intro text s joint
  simp only [Reader.orNull]
  split
  · rename_i opened
    exact (readLetters_placed (by decide) (joint.behind_mark opened rfl)).map fun _ => rfl
  · exact (places joint.skipBlank).map fun _ => rfl

end Reader

namespace Contents

variable {α β σ : Type} {contents : Contents α} {item : Reader α}

theorem Places.map (places : contents.Places) (f : α → β) : (contents.map f).Places :=
  fun _ _ joint => (places joint).map fun _ => rfl

theorem items_places (places : item.Places) : (Contents.items item).Places :=
  fun _ _ joint => places.items true joint

theorem upToOne_places (places : item.Places) : (upToOne item).Places :=
  fun _ _ joint => places.item? true joint

theorem members_places {choose : σ → String → Except Mismatch (Reader σ)}
    (places : ∀ state key value, choose state key = .ok value → value.Places) (start : σ)
    (finish : σ → Except Mismatch α) : (Contents.members start choose finish).Places := by
  intro text s joint
  have inside := members_placed places true start joint
  simp only [Contents.members]
  split
  · rename_i refused
    exact inside.fault refused
  · rename_i read
    have behind := inside.joint read
    split
    · exact behind.pastObject.before (by simp)
    · exact behind

end Contents

namespace Reader

variable {α : Type} {object fields : Contents α}

theorem list_places (expected : String) (places : fields.Places) :
    (list expected fields).Places := by
  intro text s joint
  simp only [list]
  split
  · rename_i opened
    have inside := places (joint.behind_mark opened rfl)
    split
    · rename_i refused
      exact inside.fault refused
    · rename_i read
      exact (closeList_placed (inside.joint read)).map fun _ => rfl
  · exact unexpected_in expected joint.skipBlank

theorem record_places (expected : String) (objects : object.Places) (lists : fields.Places) :
    (record expected object fields).Places := by
  intro text s joint
  simp only [record]
  split
  · rename_i opened
    exact list_places expected lists (joint.skipped opened)
  · rename_i opened
    have inside := objects (joint.behind_mark opened rfl)
    split
    · rename_i refused
      exact inside.fault refused
    · rename_i read
      exact (closeObject_placed (inside.joint read)).map fun _ => rfl
  · exact unexpected_in expected joint.skipBlank

/-- A text is refused at a fault that is in it. -/
theorem Places.parse_eq_error {reader : Reader α} (places : reader.Places) {text : String}
    {e : Error} (refused : reader.parse text = .error e) :
    ∃ f, e = .ofFault text.toList f ∧ f.In text.toList := by
  have placed : Placed text.toList Prod.snd (reader.read text.toList) := places .start
  simp only [parse] at refused
  split at refused
  · rename_i f reads
    exact ⟨f, (Except.error.inj refused).symm, placed.fault reads⟩
  · rename_i a r reads
    split at refused
    · cases refused
    · exact ⟨_, (Except.error.inj refused).symm, (placed.joint reads).skipBlank.next (by simp)⟩

end Reader

end TypeCatalog.Json
