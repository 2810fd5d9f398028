import TypeCatalog.Json.Reader

/-! Lists and objects as the shapes of values. A shape says what may stand between the marks of
a container; `Reader.parse` reads a text that holds one value and nothing else. -/
namespace TypeCatalog.Json

/-- Reads what stands between the marks of a list or an object, up to the end mark or to the
first part that is not wanted. -/
structure Contents (α : Type) where
  read : List Char → Except Fault (α × List Char)
  shrinks : ∀ {s a r}, read s = .ok (a, r) → r.length ≤ s.length

namespace Contents

variable {α β σ : Type}

def items (item : Reader α) : Contents (List α) where
  read := Json.items item true
  shrinks := length_le_of_items

def pair (expected : String) (first : Reader α) (second : Reader β) : Contents (α × β) where
  read s :=
    match item? first true s with
    | .error f => .error f
    | .ok (none, r) => .error (.before (.data (.wrongLength 0 expected)) (pastList r))
    | .ok (some a, r) =>
      match item? second false r with
      | .error f => .error f
      | .ok (none, r) => .error (.before (.data (.wrongLength 1 expected)) (pastList r))
      | .ok (some b, r) => .ok ((a, b), r)
  shrinks {s _ r} h := by
    split at h <;> try simp at h
    rename_i a t ht
    have := length_le_of_item? ht
    split at h <;> try simp at h
    rename_i b u hu
    have := length_le_of_item? hu
    rw [← h.2]; omega

def upToOne (item : Reader α) : Contents (Option α) where
  read := item? item true
  shrinks := length_le_of_item?

/-- The members of an object, folded into a state that `finish` completes. -/
def members (start : σ) (choose : σ → String → Except Mismatch (Reader σ))
    (finish : σ → Except Mismatch α) : Contents α where
  read s :=
    match Json.members choose true start s with
    | .error f => .error f
    | .ok (state, r) =>
      match finish state with
      | .error m => .error (.before (.data m) (pastObject r))
      | .ok a => .ok (a, r)
  shrinks {s _ r} h := by
    split at h
    · simp at h
    · rename_i state t ht
      have := length_le_of_members ht
      split at h <;> simp at h
      rw [← h.2]; exact this

def map (f : α → β) (contents : Contents α) : Contents β where
  read s := (contents.read s).map fun (a, r) => (f a, r)
  shrinks {s _ r} h := by
    cases hs : contents.read s with
    | error f => simp [hs, Except.map] at h
    | ok p =>
      simp [hs, Except.map] at h
      have := contents.shrinks hs
      rw [← h.2]; exact this

end Contents

namespace Reader

variable {α : Type}

def list (expected : String) (contents : Contents α) : Reader α where
  read s :=
    match skipBlank s with
    | '[' :: r =>
      match contents.read r with
      | .error f => .error f
      | .ok (a, r) => (closeList r).map (a, ·)
    | t => .error (unexpected expected t)
  shrinks {s _ r} h := by
    have := length_skipBlank_le s
    split at h
    · rename_i t ht
      split at h
      · simp at h
      · rename_i b u hu
        have := contents.shrinks hu
        cases hc : closeList u with
        | error f => simp [hc, Except.map] at h
        | ok v =>
          have := length_lt_of_closeList hc
          simp [hc, Except.map] at h
          simp [ht] at *
          rw [← h.2]; omega
    · simp at h

def record (expected : String) (object fields : Contents α) : Reader α where
  read s :=
    match skipBlank s with
    | '[' :: r => (list expected fields).read ('[' :: r)
    | '\x7b' :: r =>
      match object.read r with
      | .error f => .error f
      | .ok (a, r) => (closeObject r).map (a, ·)
    | t => .error (unexpected expected t)
  shrinks {s _ r} h := by
    have := length_skipBlank_le s
    split at h
    · rename_i t ht
      have := (list expected fields).shrinks h
      simp [ht] at *
      omega
    · rename_i t ht
      split at h
      · simp at h
      · rename_i b u hu
        have := object.shrinks hu
        cases hc : closeObject u with
        | error f => simp [hc, Except.map] at h
        | ok v =>
          have := length_lt_of_closeObject hc
          simp [hc, Except.map] at h
          simp [ht] at *
          rw [← h.2]; omega
    · simp at h

/-- Reads a text that holds one value, with white space around it. -/
def parse (reader : Reader α) (text : String) : Except Error α :=
  let s := text.toList
  match reader.read s with
  | .error f => .error (.ofFault s f)
  | .ok (a, r) =>
    match skipBlank r with
    | [] => .ok a
    | t => .error (.ofFault s (.next .trailingCharacters t))

end Reader

end TypeCatalog.Json
