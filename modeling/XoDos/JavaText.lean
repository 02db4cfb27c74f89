import XoDos.Java

/-!
# Operations of Java strings

Searching, cutting and replacing in strings of UTF-16 code units.
-/

namespace XoDos

/-! ## Searching in strings -/

/-- `text.indexOf(c, start)` -/
def indexOf (text : JavaString) (c : Nat) (start : Int) : Int :=
  let behind := text.drop start.toNat
  if c ∈ behind then start.toNat + behind.idxOf c else -1

/-- `text.substring(start, stop)` -/
def substring (text : JavaString) (start stop : Int) : Java JavaString :=
  if 0 ≤ start ∧ start ≤ stop ∧ stop ≤ text.length then
    .ok ((text.drop start.toNat).take (stop - start).toNat)
  else .error .stringIndexOutOfBounds

theorem substring_middle {text before middle after : JavaString}
    (h : text = before ++ (middle ++ after)) {start stop : Int} (hstart : start = before.length)
    (hstop : stop = before.length + middle.length) : substring text start stop = .ok middle := by
  have hlength : text.length = before.length + (middle.length + after.length) := by
    rw [h, List.length_append, List.length_append]
  have hcount : (stop - start).toNat = middle.length := by omega
  have hskip : start.toNat = before.length := by omega
  rw [substring, if_pos (by omega), hcount, hskip, h, List.drop_left, List.take_left]

/-- The unit is found behind a text that has none. -/
theorem indexOf_append {text before middle after : JavaString} {c : Nat} (hc : c ∉ middle)
    (h : text = before ++ (middle ++ c :: after)) :
    indexOf text c before.length = before.length + middle.length := by
  simp only [indexOf, Int.toNat_natCast, h, List.drop_left]
  rw [if_pos (by simp), List.idxOf_append_of_notMem hc, List.idxOf_cons_self]
  push_cast
  ring

theorem indexOf_missing {text before after : JavaString} {c : Nat} (hc : c ∉ after)
    (h : text = before ++ after) : indexOf text c before.length = -1 := by
  simp only [indexOf, Int.toNat_natCast, h, List.drop_left, if_neg hc]

/-! ## Replacing -/

/-- `replace(target, replacement)`, behind `skip` units of a match. -/
def replaceFrom (target replacement : JavaString) : Nat → JavaString → JavaString
  | _, [] => []
  | skip + 1, _ :: rest => replaceFrom target replacement skip rest
  | 0, c :: rest =>
    if target <+: c :: rest then
      replacement ++ replaceFrom target replacement (target.length - 1) rest
    else c :: replaceFrom target replacement 0 rest

def replace (target replacement text : JavaString) : JavaString :=
  replaceFrom target replacement 0 text

theorem replace_single (t : Nat) (r text : JavaString) :
    replace [t] r text = text.flatMap fun c => if c = t then r else [c] := by
  unfold replace
  induction text with
  | nil => rfl
  | cons c text ih =>
    rw [replaceFrom, List.flatMap_cons]
    by_cases h : c = t
    · simp [h, ih]
    · simp [h, ih, Ne.symm h]

theorem replace_pair_hit (a b : Nat) (r rest : JavaString) :
    replace [a, b] r (a :: b :: rest) = r ++ replace [a, b] r rest := by
  simp [replace, replaceFrom]

theorem replace_pair_miss {a b c : Nat} {rest : JavaString} (r : JavaString)
    (h : c = a → ¬[b] <+: rest) : replace [a, b] r (c :: rest) = c :: replace [a, b] r rest := by
  rw [replace, replaceFrom, if_neg, replace]
  intro hp
  rw [List.cons_prefix_cons] at hp
  exact h hp.1.symm hp.2

end XoDos
