import TypeCatalog.Json.Skip

/-! Readers of values of a wanted shape. A reader takes a value off the front of a text; it
always takes something, which is why lists and objects end. Objections to the shape lie where
the container at hand ends, as far as its end can be seen. -/
namespace TypeCatalog.Json

structure Reader (α : Type) where
  read : List Char → Except Fault (α × List Char)
  shrinks : ∀ {s a r}, read s = .ok (a, r) → r.length < s.length

/-- The fault of a value that is not of the expected kind. A scalar is read first, so that its
own faults come before this one. -/
def unexpected (expected : String) (s : List Char) : Fault :=
  match s with
  | [] => .next .endInValue []
  | 'n' :: r => after (fun _ => .null) ((readLetters ['u', 'l', 'l'] r).map ((), ·))
  | 't' :: r => after (fun _ => .boolean true) ((readLetters ['r', 'u', 'e'] r).map ((), ·))
  | 'f' :: r => after (fun _ => .boolean false) ((readLetters ['a', 'l', 's', 'e'] r).map ((), ·))
  | '-' :: r => after ofNumber (readNumber true r)
  | '"' :: r => after (fun cs => .string (String.ofList cs)) (readString r)
  | '[' :: _ => .before (.data (.wrongKind .sequence expected)) s
  | '\x7b' :: _ => .before (.data (.wrongKind .map expected)) s
  | c :: _ => if c.isDigit then after ofNumber (readNumber false s) else .next .noValue s
where
  after {α : Type} (found : α → Found) : Except Fault (α × List Char) → Fault
    | .error f => f
    | .ok (a, r) => .before (.data (.wrongKind (found a) expected)) r
  ofNumber : Number → Found
    | .integer n => .integer n
    | .float f => .float f

/-- Whether another item follows, and the text from it on; otherwise the text from the end mark
on. -/
def nextItem (first : Bool) (s : List Char) : Except Fault (Bool × List Char) :=
  match skipBlank s with
  | [] => .error (.next .endInList [])
  | ']' :: r => .ok (false, ']' :: r)
  | c :: r =>
    if first then .ok (true, c :: r)
    else if c = ',' then
      match skipBlank r with
      | [] => .error (.next .endInValue [])
      | ']' :: t => .error (.next .trailingComma (']' :: t))
      | t => .ok (true, t)
    else .error (.next .noListComma (c :: r))

def nextQuote (first : Bool) (s : List Char) : Except Fault (Bool × List Char) :=
  match skipBlank s with
  | [] => .error (.next .endInObject [])
  | '\x7d' :: r => .ok (false, '\x7d' :: r)
  | c :: r =>
    if first then (if c = '"' then .ok (true, r) else .error (.next .keyNotString (c :: r)))
    else if c = ',' then
      match skipBlank r with
      | [] => .error (.next .endInValue [])
      | '"' :: t => .ok (true, t)
      | '\x7d' :: t => .error (.next .trailingComma ('\x7d' :: t))
      | t => .error (.next .keyNotString t)
    else .error (.next .noObjectComma (c :: r))

def nextKey (first : Bool) (s : List Char) : Except Fault (Option String × List Char) :=
  match nextQuote first s with
  | .error f => .error f
  | .ok (false, r) => .ok (none, r)
  | .ok (true, r) =>
    match readString r with
    | .error f => .error f
    | .ok (cs, r) => .ok (some (String.ofList cs), r)

theorem length_le_of_nextItem {first b : Bool} {s r : List Char}
    (h : nextItem first s = .ok (b, r)) : r.length ≤ s.length := by
  have := length_skipBlank_le s
  unfold nextItem at h
  split at h
  · simp at h
  · simp_all
    rw [← h.2]; simpa using this
  · rename_i c t _ ht
    have := length_skipBlank_le t
    split at h
    · simp_all
      rw [← h.2, List.length_cons]; omega
    · split at h
      · split at h <;> simp_all
        omega
      · simp at h

theorem length_le_of_nextQuote {first b : Bool} {s r : List Char}
    (h : nextQuote first s = .ok (b, r)) : r.length ≤ s.length := by
  have := length_skipBlank_le s
  unfold nextQuote at h
  split at h
  · simp at h
  · simp_all
    rw [← h.2]; simpa using this
  · rename_i c t _ ht
    have := length_skipBlank_le t
    split at h
    · split at h <;> simp_all
      omega
    · split at h
      · split at h <;> simp_all
        omega
      · simp at h

theorem length_le_of_nextKey {first : Bool} {s r : List Char} {key? : Option String}
    (h : nextKey first s = .ok (key?, r)) : r.length ≤ s.length := by
  unfold nextKey at h
  split at h
  · simp at h
  · rename_i u hu
    have := length_le_of_nextQuote hu
    simp_all
  · rename_i u hu
    have := length_le_of_nextQuote hu
    split at h
    · simp at h
    · rename_i v hv
      have := length_lt_of_readString hv
      simp_all; omega

def items {α : Type} (item : Reader α) (first : Bool) (s : List Char) :
    Except Fault (List α × List Char) :=
  match _hs : nextItem first s with
  | .error f => .error f
  | .ok (false, r) => .ok ([], r)
  | .ok (true, r) =>
    match _hr : item.read r with
    | .error f => .error f
    | .ok (a, t) =>
      match items item false t with
      | .error f => .error f
      | .ok (as, u) => .ok (a :: as, u)
termination_by s.length
decreasing_by
  have := length_le_of_nextItem _hs
  have := item.shrinks _hr
  omega

def item? {α : Type} (item : Reader α) (first : Bool) (s : List Char) :
    Except Fault (Option α × List Char) :=
  match nextItem first s with
  | .error f => .error f
  | .ok (false, r) => .ok (none, r)
  | .ok (true, r) => (item.read r).map fun (a, r) => (some a, r)

theorem length_le_of_items {α : Type} {item : Reader α} {first : Bool} {s r : List Char}
    {as : List α} (h : items item first s = .ok (as, r)) : r.length ≤ s.length := by
  fun_induction items item first s generalizing as r with
  | case1 => simp at h
  | case2 _ _ _ hs =>
    have := length_le_of_nextItem hs
    simp_all
  | case3 => simp at h
  | case4 => simp at h
  | case5 _ _ _ hs _ _ hr _ _ ht ih =>
    have := length_le_of_nextItem hs
    have := item.shrinks hr
    have := ih ht
    simp at h
    rw [← h.2]; omega

theorem length_le_of_item? {α : Type} {item : Reader α} {first : Bool} {s r : List Char}
    {a? : Option α} (h : item? item first s = .ok (a?, r)) : r.length ≤ s.length := by
  unfold item? at h
  split at h
  · simp at h
  · rename_i u hu
    have := length_le_of_nextItem hu
    simp_all
  · rename_i u hu
    have := length_le_of_nextItem hu
    cases hr : item.read u with
    | error f => simp [hr, Except.map] at h
    | ok p =>
      have := item.shrinks hr
      simp [hr, Except.map] at h
      rw [← h.2]; omega

/-- All members up to the end mark, folded into a state. Seeing a key, `choose` either objects
or says how its value changes the state. -/
def members {σ : Type} (choose : σ → String → Except Mismatch (Reader σ)) (first : Bool)
    (state : σ) (s : List Char) : Except Fault (σ × List Char) :=
  match _hs : nextKey first s with
  | .error f => .error f
  | .ok (none, r) => .ok (state, r)
  | .ok (some key, r) =>
    match choose state key with
    | .error m => .error (.before (.data m) (pastObject r))
    | .ok value =>
      match _hr : readColon r with
      | .error f => .error f
      | .ok t =>
        match _ht : value.read t with
        | .error f => .error f
        | .ok (state, u) => members choose false state u
termination_by s.length
decreasing_by
  have := length_le_of_nextKey _hs
  have := length_lt_of_readColon _hr
  have := value.shrinks _ht
  omega

theorem length_le_of_members {σ : Type} {choose : σ → String → Except Mismatch (Reader σ)}
    {first : Bool} {state final : σ} {s r : List Char}
    (h : members choose first state s = .ok (final, r)) : r.length ≤ s.length := by
  fun_induction members choose first state s with
  | case1 => simp at h
  | case2 _ _ _ _ hs =>
    have := length_le_of_nextKey hs
    simp_all
  | case3 => simp at h
  | case4 => simp at h
  | case5 => simp at h
  | case6 _ _ _ _ _ hs _ _ _ hr _ _ ht ih =>
    have := length_le_of_nextKey hs
    have := length_lt_of_readColon hr
    have := Reader.shrinks _ ht
    have := ih h
    omega

namespace Reader

variable {α β σ : Type}

def map (f : α → β) (reader : Reader α) : Reader β where
  read s := (reader.read s).map fun (a, r) => (f a, r)
  shrinks {s a r} h := by
    cases hs : reader.read s with
    | error f => simp [hs, Except.map] at h
    | ok p =>
      simp [hs, Except.map] at h
      have := reader.shrinks hs
      rw [← h.2]; exact this

def ignored : Reader Unit where
  read s := (skipValue [] s).map ((), ·)
  shrinks {s _ r} h := by
    cases hs : skipValue [] s with
    | error f => simp [hs, Except.map] at h
    | ok p =>
      simp [hs, Except.map] at h
      rw [← h]; exact length_lt_of_skipValue hs

def string : Reader String where
  read s :=
    match skipBlank s with
    | '"' :: r => (readString r).map fun (cs, r) => (String.ofList cs, r)
    | t => .error (unexpected "a string" t)
  shrinks {s _ r} h := by
    have := length_skipBlank_le s
    split at h
    · rename_i t ht
      cases hs : readString t with
      | error f => simp [hs, Except.map] at h
      | ok p =>
        have := length_lt_of_readString hs
        simp [hs, Except.map] at h
        simp [ht] at *
        rw [← h.2]; omega
    · simp at h

def boolean : Reader Bool where
  read s :=
    match skipBlank s with
    | 't' :: r => (readLetters ['r', 'u', 'e'] r).map (true, ·)
    | 'f' :: r => (readLetters ['a', 'l', 's', 'e'] r).map (false, ·)
    | t => .error (unexpected "a boolean" t)
  shrinks {s _ r} h := by
    have := length_skipBlank_le s
    split at h
    · rename_i t ht
      cases hs : readLetters ['r', 'u', 'e'] t with
      | error f => simp [hs, Except.map] at h
      | ok p =>
        have := length_of_readLetters hs
        simp [hs, Except.map] at h
        simp [ht] at *
        rw [← h.2]; omega
    · rename_i t ht
      cases hs : readLetters ['a', 'l', 's', 'e'] t with
      | error f => simp [hs, Except.map] at h
      | ok p =>
        have := length_of_readLetters hs
        simp [hs, Except.map] at h
        simp [ht] at *
        rw [← h.2]; omega
    · simp at h

def orNull (reader : Reader α) : Reader (Option α) where
  read s :=
    match skipBlank s with
    | 'n' :: r => (readLetters ['u', 'l', 'l'] r).map (none, ·)
    | t => (reader.read t).map fun (a, r) => (some a, r)
  shrinks {s _ r} h := by
    have := length_skipBlank_le s
    split at h
    · rename_i t ht
      cases hs : readLetters ['u', 'l', 'l'] t with
      | error f => simp [hs, Except.map] at h
      | ok p =>
        have := length_of_readLetters hs
        simp [hs, Except.map] at h
        simp [ht] at *
        rw [← h.2]; omega
    · cases hs : reader.read (skipBlank s) with
      | error f => simp [hs, Except.map] at h
      | ok p =>
        have := reader.shrinks hs
        simp [hs, Except.map] at h
        rw [← h.2]; omega

end Reader

end TypeCatalog.Json
