import TypeCatalog.Proofs.Json.Skipping
import TypeCatalog.Proofs.Json.Steps

/-! JSON texts are unambiguous. Where a number is taken as far as it goes, a text begins with one
phrase at most, and this phrase ends in one place. -/
namespace TypeCatalog.Json.Grammar

section Parts

variable {first : Bool} {s t t' r r' : List Char} {c c' : Char}

/-- White space ends in one place. -/
theorem Blanks.solid_unique (blanks : Blanks s (c :: r)) (blanks' : Blanks s (c' :: r'))
    (solid : isBlank c = false) (solid' : isBlank c' = false) : c = c' ∧ r = r' := by
  rw [← skipBlank_eq_cons_iff solid] at blanks
  rw [← skipBlank_eq_cons_iff solid', blanks] at blanks'
  exact List.cons.inj blanks'

/-- So does what stands in front of an item or a member. -/
theorem Gap.solid_unique (gap : Gap first s (c :: r)) (gap' : Gap first s (c' :: r'))
    (solid : isBlank c = false) (solid' : isBlank c' = false) : c = c' ∧ r = r' := by
  cases first with
  | true => exact Blanks.solid_unique gap gap' solid solid'
  | false =>
    obtain ⟨t, comma, before⟩ := gap
    obtain ⟨t', comma', before'⟩ := gap'
    obtain ⟨-, rfl⟩ := comma.solid_unique comma' rfl rfl
    exact before.solid_unique before' solid solid'

/-- Where the end mark stands no item or member follows. -/
theorem Gap.not_of_mark {mark : Char} (ends : Blanks s (mark :: r)) (solid : isBlank mark = false)
    (noComma : mark ≠ ',') (solid' : isBlank c = false) (goesOn : c ≠ mark) :
    ¬Gap first s (c :: t) := by
  intro gap
  cases first with
  | true => exact goesOn (Blanks.solid_unique gap ends solid' solid).1
  | false =>
    obtain ⟨u, comma, -⟩ := gap
    exact noComma (ends.solid_unique comma solid rfl).1

theorem Hex.unique {n n' : Nat} (hex : Hex s n r) (hex' : Hex s n' r') : n = n' ∧ r = r' := by
  rw [← readHex_eq_ok_iff] at hex hex'
  simpa using hex.symm.trans hex'

theorem letter_unique {l c c' : Char} (known : (l, c) ∈ letters) (known' : (l, c') ∈ letters) :
    c = c' := by
  rw [← escaped?_eq_some_iff] at known known'
  exact Option.some.inj (known.symm.trans known')

theorem u_not_mem_letters (c : Char) : ('u', c) ∉ letters :=
  fun known => ne_u_of_escaped? (escaped?_eq_some_iff.mpr known) rfl

/-- Between quotes there are only these pieces. -/
theorem Pieces.unique {pieces pieces' : List Piece} (between : Pieces s pieces ('"' :: r))
    (between' : Pieces s pieces' ('"' :: r')) : pieces = pieces' ∧ r = r' := by
  generalize ends : '"' :: r = closing at between
  induction between generalizing pieces' with
  | nil =>
    subst ends
    cases between' with
    | nil => exact ⟨rfl, rfl⟩
    | plain quote _ _ _ => exact absurd rfl quote
  | plain quote backslash _ _ ih =>
    cases between' with
    | nil => exact absurd rfl quote
    | plain _ _ _ others =>
      obtain ⟨rfl, rfl⟩ := ih others ends
      exact ⟨rfl, rfl⟩
    | letter _ _ => exact absurd rfl backslash
    | unit _ _ => exact absurd rfl backslash
  | letter known _ ih =>
    cases between' with
    | plain _ backslash _ _ => exact absurd rfl backslash
    | letter known' others =>
      obtain ⟨rfl, rfl⟩ := ih others ends
      rw [letter_unique known known']
      exact ⟨rfl, rfl⟩
    | unit _ _ => exact absurd known (u_not_mem_letters _)
  | unit hex _ ih =>
    cases between' with
    | plain _ backslash _ _ => exact absurd rfl backslash
    | letter known _ => exact absurd known (u_not_mem_letters _)
    | unit hex' others =>
      obtain ⟨rfl, rfl⟩ := hex.unique hex'
      obtain ⟨rfl, rfl⟩ := ih others ends
      exact ⟨rfl, rfl⟩

theorem Magnitude.unique (magnitude : Magnitude s r) (magnitude' : Magnitude s r')
    (ends : EndsNumber r) (ends' : EndsNumber r') : r = r' :=
  Except.ok.inj ((skipNumber_of_magnitude magnitude ends).symm.trans
    (skipNumber_of_magnitude magnitude' ends'))

/-- A number without a sign begins with a digit. -/
theorem Magnitude.digit (magnitude : Magnitude (c :: s) r) : c.isDigit = true := by
  obtain ⟨d, t, same, digit⟩ := magnitude.head
  exact (List.cons.inj same).1 ▸ digit

end Parts

mutual

/-- By the first character; the cases of a number and of anything else do not meet, as no other
phrase begins with a digit. -/
theorem Begins.unique {s r r' : List Char} {p p' : Phrase} (begins : Begins s p r)
    (begins' : Begins s p' r') (parted : Parted p r) (parted' : Parted p' r') :
    p = p' ∧ r = r' := by
  cases begins with
  | null =>
    cases begins' with
    | null => exact ⟨rfl, rfl⟩
    | number magnitude => cases magnitude.digit
  | isTrue =>
    cases begins' with
    | isTrue => exact ⟨rfl, rfl⟩
    | number magnitude => cases magnitude.digit
  | isFalse =>
    cases begins' with
    | isFalse => exact ⟨rfl, rfl⟩
    | number magnitude => cases magnitude.digit
  | number magnitude =>
    obtain ⟨d, t, rfl, digit⟩ := magnitude.head
    cases begins' with
    | number magnitude' =>
      exact ⟨rfl, magnitude.unique magnitude' (parted rfl) (parted' rfl)⟩
    | _ => cases digit
  | negative magnitude =>
    cases begins' with
    | number magnitude' => cases magnitude'.digit
    | negative magnitude' =>
      exact ⟨rfl, magnitude.unique magnitude' (parted rfl) (parted' rfl)⟩
  | string between =>
    cases begins' with
    | number magnitude => cases magnitude.digit
    | string between' =>
      obtain ⟨rfl, rfl⟩ := between.unique between'
      exact ⟨rfl, rfl⟩
  | list items =>
    cases begins' with
    | number magnitude => cases magnitude.digit
    | list items' =>
      obtain ⟨rfl, rfl⟩ := items.unique items'
      exact ⟨rfl, rfl⟩
  | object members =>
    cases begins' with
    | number magnitude => cases magnitude.digit
    | object members' =>
      obtain ⟨rfl, rfl⟩ := members.unique members'
      exact ⟨rfl, rfl⟩

theorem Items.unique {first : Bool} {s r r' : List Char} {items items' : List Phrase}
    (rest : Items first s items r) (rest' : Items first s items' r') :
    items = items' ∧ r = r' := by
  cases rest with
  | done ends =>
    cases rest' with
    | done ends' => exact ⟨rfl, (ends.solid_unique ends' rfl rfl).2⟩
    | item gap begins _ =>
      obtain ⟨c, t, rfl, solid, goesOn⟩ := begins.head
      exact absurd gap (Gap.not_of_mark ends rfl (by decide) solid goesOn)
  | item gap begins others =>
    obtain ⟨c, t, rfl, solid, goesOn⟩ := begins.head
    cases rest' with
    | done ends => exact absurd gap (Gap.not_of_mark ends rfl (by decide) solid goesOn)
    | item gap' begins' others' =>
      obtain ⟨c', t', rfl, solid', -⟩ := begins'.head
      obtain ⟨rfl, rfl⟩ := gap.solid_unique gap' solid solid'
      obtain ⟨rfl, rfl⟩ :=
        begins.unique begins' (fun _ => others.endsNumber) fun _ => others'.endsNumber
      obtain ⟨rfl, rfl⟩ := others.unique others'
      exact ⟨rfl, rfl⟩

theorem Members.unique {first : Bool} {s r r' : List Char}
    {members members' : List (List Piece × Phrase)} (rest : Members first s members r)
    (rest' : Members first s members' r') : members = members' ∧ r = r' := by
  cases rest with
  | done ends =>
    cases rest' with
    | done ends' => exact ⟨rfl, (ends.solid_unique ends' rfl rfl).2⟩
    | member gap _ _ _ _ _ =>
      exact absurd gap (Gap.not_of_mark ends rfl (by decide) rfl (by decide))
  | member gap key colon blanks begins others =>
    cases rest' with
    | done ends => exact absurd gap (Gap.not_of_mark ends rfl (by decide) rfl (by decide))
    | member gap' key' colon' blanks' begins' others' =>
      obtain ⟨-, rfl⟩ := gap.solid_unique gap' rfl rfl
      obtain ⟨rfl, rfl⟩ := key.unique key'
      obtain ⟨-, rfl⟩ := colon.solid_unique colon' rfl rfl
      obtain rfl := (begins.skipBlank_eq blanks).symm.trans (begins'.skipBlank_eq blanks')
      obtain ⟨rfl, rfl⟩ :=
        begins.unique begins' (fun _ => others.endsNumber) fun _ => others'.endsNumber
      obtain ⟨rfl, rfl⟩ := others.unique others'
      exact ⟨rfl, rfl⟩

end

/-- A text says one thing at most. -/
theorem IsText.unique {s : List Char} {p p' : Phrase} (isText : IsText s p)
    (isText' : IsText s p') : p = p' := by
  obtain ⟨t, u, before, begins, after⟩ := isText
  obtain ⟨t', u', before', begins', after'⟩ := isText'
  obtain rfl := (begins.skipBlank_eq before).symm.trans (begins'.skipBlank_eq before')
  exact (begins.unique begins' (fun _ => .of_blanks after .nil) fun _ => .of_blanks after' .nil).1

end TypeCatalog.Json.Grammar
