import XoDos.JavaText

/-!
# Sets of keys and values

A `KeyValueSet` keeps its entries in one string, with a comma between two entries and an equals sign
in each.  The key is searched for by one scan when a value is put, and by another one, that of the
iterator, when it is read.
-/

namespace XoDos

structure KeyValueSet where
  data : JavaString
deriving DecidableEq, Repr

namespace KeyValueSet

def comma : Nat := 0x2C

def equals : Nat := 0x3D

/-- `new KeyValueSet("")` -/
def empty : KeyValueSet := ⟨[]⟩

/-- The end of the entry that starts there. -/
def endOf (data : JavaString) (start : Int) : Int :=
  if indexOf data comma start = -1 then data.length else indexOf data comma start

/-- The loop of `indexOfKey`, with at most as many rounds as are given. -/
def indexOfKeyLoop (data key : JavaString) : Nat → Int → Int → Java (Option (Int × Int))
  | 0, _, _ => .ok none
  | fuel + 1, start, stop =>
    if start < stop then do
      let currKey ← substring data start (indexOf data equals start)
      if currKey = key then return some (start, stop)
      else indexOfKeyLoop data key fuel (stop + 1) (endOf data (stop + 1))
    else .ok none

def indexOfKey (s : KeyValueSet) (key : JavaString) : Java (Option (Int × Int)) :=
  indexOfKeyLoop s.data key (s.data.length + 1) 0 (endOf s.data 0)

/-- `StringUtils.replace` -/
def replaceRange (text : JavaString) (start stop : Int) (value : JavaString) : Java JavaString := do
  let before ← substring text 0 start
  let after ← substring text stop text.length
  return before ++ value ++ after

def put (s : KeyValueSet) (key value : JavaString) : Java KeyValueSet := do
  match ← s.indexOfKey key with
  | some (start, stop) => return ⟨← replaceRange s.data start stop (key ++ equals :: value)⟩
  | none =>
    return ⟨(if s.data ≠ [] then s.data ++ [comma] else []) ++ (key ++ equals :: value)⟩

/-! ## The iterator -/

structure Iterator where
  start : Int
  stop : Int

def iterator (s : KeyValueSet) : Iterator := ⟨0, indexOf s.data comma 0⟩

def Iterator.hasNext (it : Iterator) : Bool := decide (it.start < it.stop)

def Iterator.next (data : JavaString) (it : Iterator) :
    Java ((JavaString × JavaString) × Iterator) := do
  let index := indexOf data equals it.start
  let key ← substring data it.start index
  let value ← substring data (index + 1) it.stop
  return ((key, value), ⟨it.stop + 1, endOf data (it.stop + 1)⟩)

/-- The items of at most as many rounds. -/
def itemsLoop (data : JavaString) : Nat → Iterator → Java (List (JavaString × JavaString))
  | 0, _ => .ok []
  | fuel + 1, it =>
    if it.hasNext then do
      let (item, it) ← it.next data
      return item :: (← itemsLoop data fuel it)
    else .ok []

def items (s : KeyValueSet) : Java (List (JavaString × JavaString)) :=
  itemsLoop s.data (s.data.length + 1) s.iterator

def getLoop (data key : JavaString) : Nat → Iterator → Java JavaString
  | 0, _ => .ok []
  | fuel + 1, it =>
    if it.hasNext then do
      let (item, it) ← it.next data
      if item.1 = key then return item.2 else getLoop data key fuel it
    else .ok []

def get (s : KeyValueSet) (key : JavaString) : Java JavaString :=
  getLoop s.data key (s.data.length + 1) s.iterator

/-- The calls of `put` one after the other. -/
def putAll (s : KeyValueSet) (puts : List (JavaString × JavaString)) : Java KeyValueSet :=
  puts.foldlM (fun s p => s.put p.1 p.2) s

/-! ## Maps with an order -/

section Entries

variable {α β : Type} [DecidableEq α] {key : α} {value : β} {entries : List (α × β)}

/-- The value of a key is replaced where it stands, or the entry is added at the end. -/
def putEntry (key : α) (value : β) : List (α × β) → List (α × β)
  | [] => [(key, value)]
  | e :: rest => if e.1 = key then (key, value) :: rest else e :: putEntry key value rest

theorem putEntry_new (h : key ∉ entries.map Prod.fst) :
    putEntry key value entries = entries ++ [(key, value)] := by
  induction entries with
  | nil => rfl
  | cons e rest ih =>
    rw [List.map_cons, List.mem_cons, not_or] at h
    rw [putEntry, if_neg (Ne.symm h.1), ih h.2, List.cons_append]

theorem putEntry_hit {before after : List (α × β)} {old : β} (h : key ∉ before.map Prod.fst) :
    putEntry key value (before ++ (key, old) :: after) = before ++ (key, value) :: after := by
  induction before with
  | nil => simp [putEntry]
  | cons e rest ih =>
    rw [List.map_cons, List.mem_cons, not_or] at h
    rw [List.cons_append, putEntry, if_neg (Ne.symm h.1), ih h.2, List.cons_append]

/-- An entry is there already, or not. -/
theorem entry_cases (key : α) (entries : List (α × β)) :
    key ∉ entries.map Prod.fst ∨ ∃ before old after,
      entries = before ++ (key, old) :: after ∧ key ∉ before.map Prod.fst := by
  induction entries with
  | nil => exact .inl (by simp)
  | cons e rest ih =>
    by_cases he : e.1 = key
    · exact .inr ⟨[], e.2, rest, by rw [← he, List.nil_append], by simp⟩
    · rcases ih with hnone | ⟨before, old, after, hrest, hbefore⟩
      · left
        simpa [Ne.symm he] using hnone
      · right
        refine ⟨e :: before, old, after, by rw [hrest, List.cons_append], ?_⟩
        simpa [Ne.symm he] using hbefore

/-- The value that was put last. -/
def lastValue (puts : List (α × β)) (key : α) : Option β :=
  (puts.reverse.find? fun p => p.1 = key).map Prod.snd

/-- The keys in the order in which they were first put. -/
def firstKeys (puts : List (α × β)) : List α := (puts.map Prod.fst).eraseDups

theorem lastValue_append (puts : List (α × β)) (p : α × β) (key : α) :
    lastValue (puts ++ [p]) key = if p.1 = key then some p.2 else lastValue puts key := by
  rw [lastValue, List.reverse_append, List.reverse_singleton, List.singleton_append, List.find?_cons]
  split_ifs with h
  · simp [h]
  · simp [h, lastValue]

theorem firstKeys_append (puts : List (α × β)) (p : α × β) :
    firstKeys (puts ++ [p]) =
      firstKeys puts ++ if p.1 ∈ puts.map Prod.fst then [] else [p.1] := by
  rw [firstKeys, List.map_append, List.eraseDups_append, firstKeys]
  split_ifs with h
  · simp [List.removeAll, h]
  · simp [List.removeAll, h, List.eraseDups_cons]

theorem lastValue_none {puts : List (α × β)} (h : key ∉ firstKeys puts) :
    lastValue puts key = none := by
  rw [lastValue, Option.map_eq_none_iff, List.find?_eq_none]
  intro p hp
  simp only [decide_eq_true_eq]
  intro heq
  apply h
  rw [firstKeys, List.mem_eraseDups, ← heq]
  exact List.mem_map_of_mem (List.mem_reverse.mp hp)

/-- After any calls the entries are those of a map, each key once. -/
theorem foldl_putEntry (puts : List (α × β)) :
    (puts.foldl (fun entries p => putEntry p.1 p.2 entries) []).map Prod.fst = firstKeys puts ∧
      (firstKeys puts).Nodup ∧
      ∀ e ∈ puts.foldl (fun entries p => putEntry p.1 p.2 entries) [],
        lastValue puts e.1 = some e.2 := by
  -- The last put decides the value, so the list is taken apart from its end.
  induction puts using List.reverseRecOn with
  | nil => simp [firstKeys]
  | append_singleton puts p ih =>
    obtain ⟨hkeys, hnodup, hvalues⟩ := ih
    rw [List.foldl_append, List.foldl_cons, List.foldl_nil, firstKeys_append]
    have hmem : ∀ key, key ∈ firstKeys puts ↔ key ∈ puts.map Prod.fst := fun key =>
      List.mem_eraseDups
    rcases entry_cases p.1 (puts.foldl (fun entries p => putEntry p.1 p.2 entries) []) with
      hnew | ⟨before, old, after, heq, hbefore⟩
    · rw [putEntry_new hnew]
      rw [hkeys] at hnew
      rw [if_neg fun h => hnew ((hmem p.1).mpr h)]
      refine ⟨by simp [hkeys], ?_, fun e he => ?_⟩
      · rw [List.nodup_append]
        refine ⟨hnodup, by simp, fun a ha b hb hab => ?_⟩
        rw [hab, List.mem_singleton.mp hb] at ha
        exact hnew ha
      · rw [lastValue_append]
        rcases List.mem_append.mp he with he | he
        · have hne : p.1 ≠ e.1 := by
            intro h
            apply hnew
            rw [h, ← hkeys]
            exact List.mem_map_of_mem he
          rw [if_neg hne]
          exact hvalues e he
        · rw [List.mem_singleton.mp he, if_pos rfl]
    · rw [heq] at hkeys hvalues ⊢
      rw [putEntry_hit hbefore]
      have hold : p.1 ∈ puts.map Prod.fst := by
        rw [← hmem, ← hkeys]
        simp
      rw [if_pos hold, List.append_nil]
      refine ⟨by rw [← hkeys]; simp, hnodup, fun e he => ?_⟩
      rw [lastValue_append]
      split_ifs with hp
      · -- The key stands in no other entry.
        rw [← hkeys, List.map_append, List.map_cons] at hnodup
        have hafter : p.1 ∉ after.map Prod.fst :=
          (List.nodup_cons.mp (List.nodup_append.mp hnodup).2.1).1
        rcases List.mem_append.mp he with he | he
        · exact absurd (by rw [hp]; exact List.mem_map_of_mem he) hbefore
        · rcases List.mem_cons.mp he with rfl | he
          · rfl
          · exact absurd (by rw [hp]; exact List.mem_map_of_mem he) hafter
      · apply hvalues e
        rcases List.mem_append.mp he with he | he
        · exact List.mem_append_left _ he
        · rcases List.mem_cons.mp he with rfl | he
          · exact absurd rfl hp
          · exact List.mem_append_right _ (List.mem_cons_of_mem _ he)

end Entries

/-! ## The string of the entries -/

/-- A key and a value as they may be put. -/
def Valid (p : JavaString × JavaString) : Prop := comma ∉ p.1 ∧ equals ∉ p.1 ∧ comma ∉ p.2

instance (p : JavaString × JavaString) : Decidable (Valid p) := inferInstanceAs (Decidable (_ ∧ _))

def block (e : JavaString × JavaString) : JavaString := e.1 ++ equals :: e.2

/-- The entries that come behind another one. -/
def tails (entries : List (JavaString × JavaString)) : JavaString :=
  entries.flatMap fun e => comma :: block e

/-- The entries that come before another one. -/
def fronts (entries : List (JavaString × JavaString)) : JavaString :=
  entries.flatMap fun e => block e ++ [comma]

def rendered : List (JavaString × JavaString) → JavaString
  | [] => []
  | e :: rest => block e ++ tails rest

variable {data done key value : JavaString} {e : JavaString × JavaString}
  {entries rest : List (JavaString × JavaString)}

theorem rendered_split (before : List (JavaString × JavaString)) (e : JavaString × JavaString)
    (after : List (JavaString × JavaString)) :
    rendered (before ++ e :: after) = fronts before ++ (block e ++ tails after) := by
  induction before with
  | nil => rfl
  | cons first before ih =>
    have htails : tails (before ++ e :: after) = comma :: rendered (before ++ e :: after) := by
      cases before <;> simp [tails, rendered]
    rw [List.cons_append, rendered, htails, ih]
    simp [fronts]

theorem rendered_concat (entries : List (JavaString × JavaString)) (e : JavaString × JavaString) :
    rendered (entries ++ [e]) =
      (if rendered entries ≠ [] then rendered entries ++ [comma] else []) ++ block e := by
  cases entries with
  | nil => simp [rendered, tails]
  | cons first rest =>
    have hne : rendered (first :: rest) ≠ [] := by simp [rendered, block]
    rw [if_pos hne]
    simp [rendered, tails]

theorem comma_block (h : Valid e) : comma ∉ block e := by
  have hne : comma ≠ equals := by decide
  rw [block, List.mem_append, List.mem_cons, not_or, not_or]
  exact ⟨h.1, hne, h.2.2⟩

/-- Each entry takes up units of its own. -/
theorem length_rendered (entries : List (JavaString × JavaString)) :
    entries.length ≤ (rendered entries).length := by
  have htails : ∀ rest : List (JavaString × JavaString), rest.length ≤ (tails rest).length := by
    intro rest
    induction rest with
    | nil => exact le_rfl
    | cons e rest ih =>
      simp only [tails, List.flatMap_cons, List.length_append, List.length_cons] at ih ⊢
      omega
  cases entries with
  | nil => exact le_rfl
  | cons e rest =>
    have hrest := htails rest
    simp only [rendered, block, List.length_append, List.length_cons]
    omega

/-- An entry ends before the next comma, or at the end. -/
theorem endOf_entry (h : data = done ++ rendered (e :: rest)) (he : Valid e) :
    endOf data done.length = done.length + (block e).length := by
  cases rest with
  | nil =>
    have hdata : data = done ++ block e := by simpa [rendered, tails] using h
    rw [endOf, indexOf_missing (comma_block he) hdata, if_pos rfl, hdata, List.length_append]
    push_cast
    rfl
  | cons next rest =>
    have hfound := indexOf_append (comma_block he)
      (show data = done ++ (block e ++ comma :: (block next ++ tails rest)) by
        rw [h, rendered, tails, List.flatMap_cons, List.cons_append, tails])
    rw [endOf, hfound, if_neg (by omega)]

theorem endOf_behind (data : JavaString) : endOf data (data.length + 1) = data.length := by
  have hdrop : data.drop ((data.length : Int) + 1).toNat = [] := List.drop_eq_nil_of_le (by omega)
  have hmissing : indexOf data comma (data.length + 1) = -1 := by
    rw [indexOf, hdrop]
    rfl
  rw [endOf, hmissing, if_pos rfl]

/-- The place of the equals sign, and what comes before it. -/
theorem equals_entry (h : data = done ++ rendered (e :: rest)) (he : Valid e) :
    indexOf data equals done.length = done.length + e.1.length ∧
      substring data done.length (indexOf data equals done.length) = .ok e.1 := by
  have hdata : data = done ++ (e.1 ++ equals :: (e.2 ++ tails rest)) := by
    rw [h, rendered, block]
    simp
  have hindex := indexOf_append he.2.1 hdata
  exact ⟨hindex, substring_middle hdata rfl hindex⟩

/-- Behind an entry there is the next one, or the end. -/
theorem next_entry (h : data = done ++ rendered (e :: rest)) :
    rest = [] ∧ (done.length : Int) + (block e).length = data.length ∨
      rest ≠ [] ∧ data = (done ++ block e ++ [comma]) ++ rendered rest ∧
        (done.length : Int) + (block e).length + 1 = (done ++ block e ++ [comma]).length := by
  cases rest with
  | nil =>
    left
    refine ⟨rfl, ?_⟩
    rw [h, rendered, tails, List.flatMap_nil, List.append_nil, List.length_append]
    push_cast
    rfl
  | cons next rest =>
    right
    refine ⟨List.cons_ne_nil _ _, ?_, ?_⟩
    · rw [h, rendered, tails, List.flatMap_cons, rendered, tails]
      simp
    · simp only [List.length_append, List.length_singleton]
      push_cast
      rfl

/-! ## The two scans -/

/-- Where the key is in a string of entries. -/
def place (key : JavaString) : Int → List (JavaString × JavaString) → Option (Int × Int)
  | _, [] => none
  | start, e :: rest =>
    if e.1 = key then some (start, start + (block e).length)
    else place key (start + (block e).length + 1) rest

theorem block_pos (e : JavaString × JavaString) : 0 < (block e).length := by simp [block]

theorem indexOfKeyLoop_eq (key : JavaString) (fuel : Nat) (entries : List (JavaString × JavaString))
    (hne : entries ≠ []) (hfuel : entries.length ≤ fuel) (h : data = done ++ rendered entries)
    (hvalid : ∀ e ∈ entries, Valid e) :
    indexOfKeyLoop data key fuel done.length (endOf data done.length) =
      .ok (place key done.length entries) := by
  induction entries generalizing done fuel with
  | nil => exact absurd rfl hne
  | cons e rest ih =>
    cases fuel with
    | zero => simp at hfuel
    | succ fuel =>
      have he := hvalid e (by simp)
      have hpos := block_pos e
      rw [indexOfKeyLoop, endOf_entry h he, if_pos (by omega), (equals_entry h he).2, ok_bind, place]
      split_ifs with hkey
      · rfl
      · rcases next_entry h with ⟨rfl, hend⟩ | ⟨hrest, hdata, hstart⟩
        · rw [hend, endOf_behind]
          cases fuel with
          | zero => rfl
          | succ fuel =>
            rw [indexOfKeyLoop, if_neg (by omega)]
            rfl
        · rw [hstart]
          exact ih fuel hrest (by simpa using hfuel) hdata fun e he => hvalid e (by simp [he])

theorem place_new (h : key ∉ entries.map Prod.fst) (start : Int) : place key start entries = none := by
  induction entries generalizing start with
  | nil => rfl
  | cons e rest ih =>
    rw [List.map_cons, List.mem_cons, not_or] at h
    rw [place, if_neg (Ne.symm h.1), ih h.2]

theorem place_hit {before after : List (JavaString × JavaString)} {old : JavaString}
    (h : key ∉ before.map Prod.fst) (start : Int) :
    place key start (before ++ (key, old) :: after) = some (start + (fronts before).length,
      start + (fronts before).length + (block (key, old)).length) := by
  induction before generalizing start with
  | nil => simp [place, fronts]
  | cons e before ih =>
    rw [List.map_cons, List.mem_cons, not_or] at h
    have hlength : ((fronts (e :: before)).length : Int) =
        (block e).length + 1 + (fronts before).length := by
      simp only [fronts, List.flatMap_cons, List.length_append, List.length_singleton]
      push_cast
      ring
    rw [List.cons_append, place, if_neg (Ne.symm h.1), ih h.2, hlength]
    congr 2
    · ring
    · ring

/-- Putting a value is putting an entry. -/
theorem put_rendered (hentries : ∀ e ∈ entries, Valid e) (key value : JavaString) :
    put ⟨rendered entries⟩ key value = .ok ⟨rendered (putEntry key value entries)⟩ := by
  have hindex : indexOfKey ⟨rendered entries⟩ key = .ok (place key 0 entries) := by
    rw [indexOfKey]
    cases entries with
    | nil => rfl
    | cons e rest =>
      exact @indexOfKeyLoop_eq _ [] key _ _ (List.cons_ne_nil _ _)
        ((length_rendered (e :: rest)).trans (Nat.le_succ _)) rfl hentries
  rw [put, hindex, ok_bind]
  rcases entry_cases key entries with hnew | ⟨before, old, after, rfl, hbefore⟩
  · rw [place_new hnew, putEntry_new hnew, rendered_concat]
    rfl
  · have hsplit := rendered_split before (key, old) after
    have hfirst : substring (rendered (before ++ (key, old) :: after)) 0
        (0 + (fronts before).length) = .ok (fronts before) := by
      apply @substring_middle _ [] _ (block (key, old) ++ tails after) hsplit
      · rfl
      · simp
    have hlast : substring (rendered (before ++ (key, old) :: after))
        (0 + (fronts before).length + (block (key, old)).length)
        (rendered (before ++ (key, old) :: after)).length = .ok (tails after) := by
      apply @substring_middle _ (fronts before ++ block (key, old)) _ []
      · rw [hsplit, List.append_nil, List.append_assoc]
      · rw [List.length_append]
        push_cast
        ring
      · rw [hsplit, List.length_append, List.length_append, List.length_append]
        push_cast
        ring
    rw [place_hit hbefore, putEntry_hit hbefore]
    simp only [replaceRange, hfirst, hlast, ok_bind]
    rw [rendered_split]
    simp [block]
    rfl

/-- The string after any calls is that of the entries. -/
theorem putAll_rendered {puts : List (JavaString × JavaString)} (h : ∀ p ∈ puts, Valid p) :
    putAll empty puts =
        .ok ⟨rendered (puts.foldl (fun entries p => putEntry p.1 p.2 entries) [])⟩ ∧
      ∀ e ∈ puts.foldl (fun entries p => putEntry p.1 p.2 entries) [], Valid e := by
  induction puts using List.reverseRecOn with
  | nil => exact ⟨rfl, by simp⟩
  | append_singleton puts p ih =>
    obtain ⟨hrun, hentries⟩ := ih fun q hq => h q (by simp [hq])
    rw [putAll] at hrun
    rw [putAll, List.foldlM_append, hrun, ok_bind, List.foldlM_cons, put_rendered hentries,
      List.foldl_append, List.foldl_cons, List.foldl_nil]
    refine ⟨rfl, fun e he => ?_⟩
    rcases entry_cases p.1 (puts.foldl (fun entries p => putEntry p.1 p.2 entries) []) with
      hnew | ⟨before, old, after, heq, hbefore⟩
    · rw [putEntry_new hnew] at he
      rcases List.mem_append.mp he with he | he
      · exact hentries e he
      · rw [List.mem_singleton.mp he]
        exact h p (by simp)
    · rw [heq, putEntry_hit hbefore] at he
      rw [heq] at hentries
      rcases List.mem_append.mp he with he | he
      · exact hentries e (List.mem_append_left _ he)
      · rcases List.mem_cons.mp he with rfl | he
        · exact h p (by simp)
        · exact hentries e (List.mem_append_right _ (List.mem_cons_of_mem _ he))

/-- One round of the iterator. -/
theorem next_rendered (h : data = done ++ rendered (e :: rest)) (he : Valid e) :
    Iterator.next data ⟨done.length, done.length + (block e).length⟩ =
      .ok (e, ⟨done.length + (block e).length + 1,
        endOf data (done.length + (block e).length + 1)⟩) := by
  obtain ⟨hindex, hkey⟩ := equals_entry h he
  have hvalue : substring data (done.length + e.1.length + 1) (done.length + (block e).length) =
      .ok e.2 := by
    apply @substring_middle _ (done ++ e.1 ++ [equals]) _ (tails rest)
    · rw [h, rendered, block]
      simp
    · simp only [List.length_append, List.length_singleton]
      push_cast
      ring
    · simp only [block, List.length_append, List.length_cons, List.length_nil]
      push_cast
      ring
  rw [hindex] at hkey
  rw [Iterator.next]
  simp only [hindex, hkey, hvalue, ok_bind]
  rfl

/-- The iterator that stands behind the end. -/
theorem behind_hasNext (data : JavaString) :
    Iterator.hasNext ⟨(data.length : Int) + 1, endOf data (data.length + 1)⟩ = false := by
  rw [endOf_behind]
  simp [Iterator.hasNext]

theorem entry_hasNext (start : Int) (e : JavaString × JavaString) :
    Iterator.hasNext ⟨start, start + (block e).length⟩ = true := by
  have hpos := block_pos e
  simp only [Iterator.hasNext, decide_eq_true_eq]
  omega

theorem itemsLoop_rendered (fuel : Nat) (entries : List (JavaString × JavaString))
    (hne : entries ≠ []) (hfuel : entries.length ≤ fuel) (h : data = done ++ rendered entries)
    (hvalid : ∀ e ∈ entries, Valid e) :
    itemsLoop data fuel ⟨done.length, endOf data done.length⟩ = .ok entries := by
  induction entries generalizing done fuel with
  | nil => exact absurd rfl hne
  | cons e rest ih =>
    cases fuel with
    | zero => simp at hfuel
    | succ fuel =>
      have he := hvalid e (by simp)
      rw [itemsLoop, endOf_entry h he, if_pos (entry_hasNext _ _), next_rendered h he, ok_bind]
      dsimp only
      rcases next_entry h with ⟨rfl, hend⟩ | ⟨hrest, hdata, hstart⟩
      · rw [hend]
        cases fuel with
        | zero => rfl
        | succ fuel =>
          rw [itemsLoop, if_neg (by rw [behind_hasNext]; simp)]
          rfl
      · rw [hstart, ih fuel hrest (by simpa using hfuel) hdata fun e he => hvalid e (by simp [he])]
        rfl

theorem getLoop_rendered (key : JavaString) (fuel : Nat) (entries : List (JavaString × JavaString))
    (hne : entries ≠ []) (hfuel : entries.length ≤ fuel) (h : data = done ++ rendered entries)
    (hvalid : ∀ e ∈ entries, Valid e) :
    getLoop data key fuel ⟨done.length, endOf data done.length⟩ =
      .ok (((entries.find? fun e => e.1 = key).map Prod.snd).getD []) := by
  induction entries generalizing done fuel with
  | nil => exact absurd rfl hne
  | cons e rest ih =>
    cases fuel with
    | zero => simp at hfuel
    | succ fuel =>
      have he := hvalid e (by simp)
      rw [getLoop, endOf_entry h he, if_pos (entry_hasNext _ _), next_rendered h he, ok_bind,
        List.find?_cons]
      dsimp only
      by_cases hkey : e.1 = key
      · simp [hkey]
        rfl
      · simp only [hkey, if_false, decide_false]
        rcases next_entry h with ⟨rfl, hend⟩ | ⟨hrest, hdata, hstart⟩
        · rw [hend]
          cases fuel with
          | zero => rfl
          | succ fuel =>
            rw [getLoop, if_neg (by rw [behind_hasNext]; simp)]
            rfl
        · rw [hstart]
          exact ih fuel hrest (by simpa using hfuel) hdata fun e he => hvalid e (by simp [he])

/-- Before the first of several entries the iterator stands where it should. -/
theorem iterator_several {f : JavaString × JavaString}
    (hvalid : ∀ g ∈ e :: f :: rest, Valid g) :
    iterator ⟨rendered (e :: f :: rest)⟩ = ⟨0, endOf (rendered (e :: f :: rest)) 0⟩ := by
  have hfound := @indexOf_append (rendered (e :: f :: rest)) [] (block e)
    (block f ++ tails rest) comma (comma_block (hvalid e (by simp))) (by simp [rendered, tails])
  have hzero : indexOf (rendered (e :: f :: rest)) comma 0 = (block e).length := by
    simpa using hfound
  rw [iterator, endOf, hzero, if_neg (by omega)]

/-- A single entry has no comma to stop at. -/
theorem iterator_single (he : Valid e) :
    (iterator ⟨rendered [e]⟩).hasNext = false := by
  have hmissing := @indexOf_missing (rendered [e]) [] (block e) comma (comma_block he)
    (by simp [rendered, tails])
  have hzero : indexOf (rendered [e]) comma 0 = -1 := by simpa using hmissing
  simp [iterator, hzero, Iterator.hasNext]

/-! ## The set as a map -/

/-- What is read is what was put. -/
structure MapLike (s : KeyValueSet) (puts : List (JavaString × JavaString)) : Prop where
  get : ∀ key, s.get key = .ok ((lastValue puts key).getD [])
  items : s.items = .ok ((firstKeys puts).map fun key => (key, (lastValue puts key).getD []))

/-- The set that the calls make is that map unless it has a single key. -/
theorem put_mapLike_iff (puts : List (JavaString × JavaString)) (h : ∀ p ∈ puts, Valid p) :
    ∃ s, putAll empty puts = .ok s ∧ (MapLike s puts ↔ (firstKeys puts).length ≠ 1) := by
  obtain ⟨hrun, hvalid⟩ := putAll_rendered h
  obtain ⟨hkeys, -, hvalues⟩ := foldl_putEntry puts
  refine ⟨_, hrun, ?_⟩
  obtain ⟨entries, hentries⟩ : ∃ entries,
      entries = puts.foldl (fun entries p => putEntry p.1 p.2 entries) [] := ⟨_, rfl⟩
  rw [← hentries] at hvalid hkeys hvalues ⊢
  have hmap : (firstKeys puts).map (fun key => (key, (lastValue puts key).getD [])) = entries := by
    rw [← hkeys, List.map_map]
    conv_rhs => rw [← List.map_id entries]
    apply List.map_congr_left
    intro e he
    simp [hvalues e he]
  have hfind : ∀ key, ((entries.find? fun e => e.1 = key).map Prod.snd).getD [] =
      (lastValue puts key).getD [] := by
    intro key
    cases hf : entries.find? fun e => e.1 = key with
    | none =>
      have hnone : key ∉ firstKeys puts := by
        rw [← hkeys]
        intro hmem
        obtain ⟨e, he, heq⟩ := List.mem_map.mp hmem
        exact absurd heq (by simpa using List.find?_eq_none.mp hf e he)
      rw [lastValue_none hnone]
      rfl
    | some e =>
      have heq : e.1 = key := by simpa using List.find?_some hf
      rw [← heq, hvalues e (List.mem_of_find?_eq_some hf)]
      rfl
  have hlength : (firstKeys puts).length = entries.length := by rw [← hkeys, List.length_map]
  rw [hlength]
  have hfuel : entries.length ≤ (rendered entries).length + 1 :=
    (length_rendered entries).trans (Nat.le_succ _)
  -- A set of one key ends without a comma, and the iterator finds no entry in it.
  match entries, hvalid, hmap, hfind, hfuel with
  | [], _, hmap, hfind, _ =>
    refine iff_of_true ⟨fun key => ?_, ?_⟩ (by simp)
    · rw [← hfind key]
      rfl
    · rw [hmap]
      rfl
  | [e], hvalid, hmap, _, _ =>
    refine iff_of_false (fun hm => ?_) (by simp)
    have hitems := hm.items
    rw [hmap, KeyValueSet.items, itemsLoop, iterator_single (hvalid e (by simp))] at hitems
    cases hitems
  | e :: f :: rest, hvalid, hmap, hfind, hfuel =>
    refine iff_of_true ⟨fun key => ?_, ?_⟩ (by simp)
    · rw [← hfind key, KeyValueSet.get, iterator_several hvalid]
      exact @getLoop_rendered _ [] key _ _ (List.cons_ne_nil _ _) hfuel rfl hvalid
    · rw [hmap, KeyValueSet.items, iterator_several hvalid]
      exact @itemsLoop_rendered _ [] _ _ (List.cons_ne_nil _ _) hfuel rfl hvalid

/-- Two keys, one of them put again. -/
theorem put_mapLike_two : ∃ s,
    putAll empty [(ascii "a", ascii "1"), (ascii "b", ascii "x=y"), (ascii "a", [])] = .ok s ∧
      MapLike s [(ascii "a", ascii "1"), (ascii "b", ascii "x=y"), (ascii "a", [])] := by
  obtain ⟨s, hrun, hiff⟩ := put_mapLike_iff
    [(ascii "a", ascii "1"), (ascii "b", ascii "x=y"), (ascii "a", [])] (by decide)
  exact ⟨s, hrun, hiff.mpr (by decide)⟩

/-- A single entry is not read. -/
theorem single_unread :
    ¬∀ puts : List (JavaString × JavaString), (∀ p ∈ puts, Valid p) →
      ∃ s, putAll empty puts = .ok s ∧ MapLike s puts := by
  intro h
  obtain ⟨s, hrun, hm⟩ := h [(ascii "a", ascii "1")] (by decide)
  have hs : s = ⟨ascii "a=1"⟩ := by
    have hdata : putAll empty [(ascii "a", ascii "1")] = .ok ⟨ascii "a=1"⟩ := by decide
    rw [hdata] at hrun
    cases hrun
    rfl
  have hget := hm.get (ascii "a")
  rw [hs] at hget
  exact absurd hget (by decide)

end KeyValueSet

end XoDos
