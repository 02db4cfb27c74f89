import Mathlib.Tactic

/-!
# A screen with a history

What a terminal buffer is for: a screen of rows, and above it the rows that have
scrolled off it, newest first, of which at most `capacity` are kept.
-/

namespace XoDos

structure Scrollback (α : Type) where
  screen : List α
  history : List α
  capacity : Nat

namespace Scrollback

variable {α : Type} (s : Scrollback α) (top bottom : Nat) (blank : α)

/-- Scroll the rows from `top` to `bottom`, exclusive, up by one.  Row `top` goes to the history. -/
def scroll : Scrollback α where
  screen := s.screen.take top ++ (s.screen.take bottom).drop (top + 1) ++ blank :: s.screen.drop bottom
  history := ((s.screen.drop top).take 1 ++ s.history).take s.capacity
  capacity := s.capacity

variable {s top bottom blank}

theorem scroll_screen_length (h : top < bottom) (hb : bottom ≤ s.screen.length) :
    (s.scroll top bottom blank).screen.length = s.screen.length := by
  simp only [scroll, List.length_append, List.length_take, List.length_drop, List.length_cons]
  omega

theorem scroll_screen_above (h : top < bottom) (hb : bottom ≤ s.screen.length) {i : Nat}
    (hi : i < top) : (s.scroll top bottom blank).screen[i]? = s.screen[i]? := by
  have htop : (s.screen.take top).length = top := by simp; omega
  rw [scroll, List.append_assoc, List.getElem?_append_left (by omega), List.getElem?_take_of_lt hi]

theorem scroll_screen_moved (hb : bottom ≤ s.screen.length) {i : Nat}
    (hi : top ≤ i) (hi' : i + 1 < bottom) :
    (s.scroll top bottom blank).screen[i]? = s.screen[i + 1]? := by
  have htop : (s.screen.take top).length = top := by simp; omega
  have hmid : ((s.screen.take bottom).drop (top + 1)).length = bottom - (top + 1) := by simp; omega
  rw [scroll, List.append_assoc, List.getElem?_append_right (by omega),
    List.getElem?_append_left (by omega), List.getElem?_drop, List.getElem?_take_of_lt (by omega)]
  congr 1
  omega

/-- The rows above the blank one. -/
theorem scroll_screen_split (h : top < bottom) (hb : bottom ≤ s.screen.length) :
    (s.screen.take top ++ (s.screen.take bottom).drop (top + 1)).length = bottom - 1 := by
  simp only [List.length_append, List.length_take, List.length_drop]
  omega

theorem scroll_screen_blank (h : top < bottom) (hb : bottom ≤ s.screen.length) :
    (s.scroll top bottom blank).screen[bottom - 1]? = some blank := by
  rw [scroll, List.getElem?_append_right (scroll_screen_split h hb).le, scroll_screen_split h hb,
    Nat.sub_self]
  rfl

theorem scroll_screen_below (h : top < bottom) (hb : bottom ≤ s.screen.length) {i : Nat}
    (hi : bottom ≤ i) : (s.scroll top bottom blank).screen[i]? = s.screen[i]? := by
  have hsplit := scroll_screen_split h hb
  rw [scroll, List.getElem?_append_right (by omega), hsplit,
    show i - (bottom - 1) = (i - bottom) + 1 by omega, List.getElem?_cons_succ, List.getElem?_drop]
  congr 1
  omega

theorem scroll_history_length (h : top < s.screen.length) :
    (s.scroll top bottom blank).history.length = min s.capacity (s.history.length + 1) := by
  simp only [scroll, List.length_take, List.length_append, List.length_drop]
  omega

theorem scroll_history_zero (h : top < s.screen.length) (hc : 0 < s.capacity) :
    (s.scroll top bottom blank).history[0]? = s.screen[top]? := by
  rw [scroll, List.getElem?_take_of_lt hc, List.getElem?_append_left (by simp; omega),
    List.getElem?_take_of_lt (by omega), List.getElem?_drop, Nat.add_zero]

theorem scroll_history_succ (h : top < s.screen.length) {k : Nat} (hk : k + 1 < s.capacity) :
    (s.scroll top bottom blank).history[k + 1]? = s.history[k]? := by
  have hone : ((s.screen.drop top).take 1).length = 1 := by simp; omega
  rw [scroll, List.getElem?_take_of_lt hk, List.getElem?_append_right (by omega), hone,
    Nat.add_sub_cancel]

end Scrollback

end XoDos
