import Mathlib.Data.List.Infix
import Mathlib.Tactic

/-!
# Paths as texts

An absolute path is a list of names, and its text has a slash in front of each of them.
-/

namespace XoDos.PathText

def slash : Nat := 0x2F

/-- A component of a path: it is not empty and has no slash. -/
structure Name (name : List Nat) : Prop where
  ne_nil : name ≠ []
  noSlash : slash ∉ name

def Names (names : List (List Nat)) : Prop := ∀ name ∈ names, Name name

/-- The names with a slash in front of each. -/
def render (names : List (List Nat)) : List Nat := names.flatMap (slash :: ·)

/-- The text of an absolute path. -/
def absolute (names : List (List Nat)) : List Nat := if names = [] then [slash] else render names

section

variable {name name' : List Nat} {names names' : List (List Nat)}

theorem Names.head (h : Names (name :: names)) : Name name := h name List.mem_cons_self

theorem Names.tail (h : Names (name :: names)) : Names names :=
  fun n hn => h n (List.mem_cons_of_mem name hn)

theorem Names.append (h : Names names) (h' : Names names') : Names (names ++ names') := by
  intro n hn
  rcases List.mem_append.mp hn with hn | hn
  · exact h n hn
  · exact h' n hn

@[simp] theorem render_nil : render [] = [] := rfl

theorem render_cons (name : List Nat) (names : List (List Nat)) :
    render (name :: names) = slash :: (name ++ render names) := rfl

theorem render_append (names names' : List (List Nat)) : render (names ++ names') = render names ++ render names' :=
  List.flatMap_append

/-- What follows a name in a text: nothing, or a slash. -/
def Cut (rest : List Nat) : Prop := ∀ c ∈ rest.head?, c = slash

theorem cut_render (names : List (List Nat)) : Cut (render names) := by
  rcases names with - | ⟨name, names⟩
  · intro c hc
    cases hc
  · intro c hc
    rw [render_cons] at hc
    cases hc
    rfl

/-- A text is cut behind its first name in one way. -/
theorem cut_prefix {rest rest' : List Nat} (hname : slash ∉ name) (hname' : slash ∉ name') (hrest : Cut rest)
    (hne : rest ≠ []) (hrest' : Cut rest') : name ++ rest <+: name' ++ rest' ↔ name = name' ∧ rest <+: rest' := by
  induction name generalizing name' with
  | nil =>
    rcases rest with - | ⟨c, rest⟩
    · exact absurd rfl hne
    · obtain rfl : c = slash := hrest c rfl
      rcases name' with - | ⟨d, name'⟩
      · simp
      · constructor
        · intro h
          rw [List.nil_append, List.cons_append, List.cons_prefix_cons] at h
          rw [← h.1] at hname'
          exact absurd List.mem_cons_self hname'
        · intro h
          cases h.1
  | cons c name ih =>
    rcases name' with - | ⟨d, name'⟩
    · constructor
      · intro h
        rcases rest' with - | ⟨d, rest'⟩
        · rw [List.nil_append, List.prefix_nil] at h
          cases h
        · rw [List.cons_append, List.nil_append, List.cons_prefix_cons] at h
          obtain rfl : d = slash := hrest' d rfl
          rw [h.1] at hname
          exact absurd List.mem_cons_self hname
      · intro h
        cases h.1
    · rw [List.cons_append, List.cons_append, List.cons_prefix_cons,
        ih (fun h => hname (List.mem_cons_of_mem c h)) (fun h => hname' (List.mem_cons_of_mem d h)),
        List.cons_eq_cons, and_assoc]

/-- A path is above another one if its text, with a slash, is a prefix. -/
theorem render_prefix_iff (h : Names names) (h' : Names names') :
    render names ++ [slash] <+: render names' ↔ names <+: names' ∧ names ≠ names' := by
  induction names generalizing names' with
  | nil =>
    rcases names' with - | ⟨name', names'⟩
    · simp
    · simp [render_cons]
  | cons name names ih =>
    rcases names' with - | ⟨name', names'⟩
    · simp [render_cons]
    · have hcut : Cut (render names ++ [slash]) := by
        intro c hc
        rcases names with - | ⟨n, names⟩
        · cases hc
          rfl
        · exact cut_render (n :: names) c hc
      rw [render_cons, render_cons, List.cons_append, List.append_assoc, List.cons_prefix_cons,
        cut_prefix h.head.noSlash h'.head.noSlash hcut (by simp) (cut_render names'), ih h.tail h'.tail,
        List.cons_prefix_cons, ne_eq, ne_eq, List.cons.injEq]
      tauto

theorem prefix_of_render_eq (h : Names names) (h' : Names names') (heq : render names = render names') :
    names <+: names' := by
  have hone : Names [[0]] := by
    intro n hn
    obtain rfl := List.mem_singleton.mp hn
    exact ⟨by decide, by decide⟩
  have hprefix : render names ++ [slash] <+: render (names' ++ [[0]]) := by
    rw [render_append, heq]
    exact (List.prefix_append_right_inj (render names')).mpr ⟨[0], rfl⟩
  rcases (render_prefix_iff h (h'.append hone)).mp hprefix with ⟨hmore, hne⟩
  exact (List.prefix_concat_iff.mp hmore).resolve_left hne

theorem render_injective (h : Names names) (h' : Names names') (heq : render names = render names') :
    names = names' :=
  (prefix_of_render_eq h h' heq).eq_of_length_le (prefix_of_render_eq h' h heq.symm).length_le

theorem absolute_of_ne_nil (h : names ≠ []) : absolute names = render names := if_neg h

theorem absolute_ne_nil (names : List (List Nat)) : absolute names ≠ [] := by
  unfold absolute
  split_ifs with h
  · simp
  · rcases names with - | ⟨n, names⟩
    · exact absurd rfl h
    · simp [render_cons]

theorem render_ne_slash (h : Names names) : render names ≠ [slash] := by
  rcases names with - | ⟨n, names⟩
  · simp
  · rw [render_cons]
    intro heq
    exact h.head.ne_nil (List.append_eq_nil_iff.mp (List.cons.inj heq).2).1

theorem absolute_injective (h : Names names) (h' : Names names') (heq : absolute names = absolute names') :
    names = names' := by
  unfold absolute at heq
  split_ifs at heq with hnil hnil' hnil'
  · rw [hnil, hnil']
  · exact absurd heq.symm (render_ne_slash h')
  · exact absurd heq (render_ne_slash h)
  · exact render_injective h h' heq

theorem absolute_prefix_iff (hne : names ≠ []) (h : Names names) (h' : Names names') :
    absolute names ++ [slash] <+: absolute names' ↔ names <+: names' ∧ names ≠ names' := by
  rw [absolute_of_ne_nil hne, absolute]
  split_ifs with hnil
  · subst hnil
    rcases names with - | ⟨n, names⟩
    · exact absurd rfl hne
    · constructor
      · intro hprefix
        have hle := hprefix.length_le
        simp [render_cons] at hle
      · intro hprefix
        simp at hprefix
  · exact render_prefix_iff h h'

end

end XoDos.PathText
