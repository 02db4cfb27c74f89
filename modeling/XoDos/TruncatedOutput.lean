import XoDos.JavaText
import XoDos.ResultSender

/-!
# Truncated output

A text that is too long for a transaction loses its end or its beginning.  The prefix that says so takes some
of the room of the text.
-/

namespace XoDos

namespace DataUtils

def transactionSizeLimitInBytes : Int := 100 * 1024

def truncatedPrefix : JavaString := ascii "(truncated) "

/-- Where the part at the end begins that has `maxLength` characters, or the lines within it. -/
def cutOffIndex (text : JavaString) (maxLength : Int) (onNewline : Bool) : Int :=
  let cutOffIndex := text.length - maxLength
  let nextNewlineIndex := indexOf text 0x0A cutOffIndex
  if onNewline ∧ nextNewlineIndex ≠ -1 ∧ nextNewlineIndex ≠ text.length - 1 then nextNewlineIndex + 1
  else cutOffIndex

def getTruncatedCommandOutput (text : Option JavaString) (maxLength : Int)
    (fromEnd onNewline addPrefix : Bool) : Java (Option JavaString) :=
  match text with
  | none => .ok none
  | some text => do
    let maxLength := if addPrefix then toInt32 (maxLength - truncatedPrefix.length) else maxLength
    if maxLength < 0 ∨ text.length < maxLength then .ok (some text)
    else
      let text ←
        if fromEnd then substring text 0 maxLength
        else substring text (cutOffIndex text maxLength onNewline) text.length
      .ok (some (if addPrefix then truncatedPrefix ++ text else text))

/-! ## What is left of a text -/

/-- The characters that are left for the text. -/
def room (maxLength : Int) (addPrefix : Bool) : Int :=
  if addPrefix then maxLength - truncatedPrefix.length else maxLength

/-- The largest part of the text for the room at its side.  At the end it may be only the lines behind the
first newline of that part. -/
def IsBody (text : JavaString) (room : Int) (fromEnd onNewline : Bool) (body : JavaString) : Prop :=
  if fromEnd then body <+: text ∧ min (text.length : Int) room ≤ body.length
  else
    body <:+ text ∧ (min (text.length : Int) room ≤ body.length ∨ onNewline ∧
      ∃ line, text.drop (text.length - room).toNat = line ++ 0x0A :: body ∧ 0x0A ∉ line)

/-- The output has the length, is a part of the text, and says whether something is missing. -/
def Truncated (text : JavaString) (maxLength : Int) (fromEnd onNewline addPrefix : Bool)
    (output : JavaString) : Prop :=
  output.length ≤ maxLength ∧ ∃ body, IsBody text (room maxLength addPrefix) fromEnd onNewline body ∧
    output = if addPrefix ∧ body ≠ text then truncatedPrefix ++ body else body

section Truncation

variable {text output : JavaString} {maxLength : Int} {fromEnd onNewline addPrefix : Bool}

theorem substring_prefix {n : Int} (h : 0 ≤ n) (hlength : n ≤ text.length) :
    substring text 0 n = .ok (text.take n.toNat) := by
  rw [substring, if_pos ⟨le_rfl, h, hlength⟩]
  simp

theorem substring_suffix {n : Int} (h : 0 ≤ n) (hlength : n ≤ text.length) :
    substring text n text.length = .ok (text.drop n.toNat) := by
  rw [substring, if_pos ⟨h, hlength, le_rfl⟩, List.take_of_length_le]
  rw [List.length_drop]
  omega

/-- The cut is at the limit, or behind a newline. -/
theorem cutOffIndex_cases (onNewline : Bool) (h : 0 ≤ maxLength) (hlength : maxLength ≤ text.length) :
    (cutOffIndex text maxLength onNewline = text.length - maxLength ∧
      (onNewline → 0x0A ∉ (text.drop (text.length - maxLength).toNat).dropLast)) ∨
    onNewline ∧ ∃ line body, text.drop (text.length - maxLength).toNat = line ++ 0x0A :: body ∧
      0x0A ∉ line ∧ body ≠ [] ∧
      cutOffIndex text maxLength onNewline = text.length - body.length := by
  have hindex : ((text.length - maxLength).toNat : Int) = text.length - maxLength := by omega
  have hbefore : (text.take (text.length - maxLength).toNat).length = (text.length - maxLength).toNat := by
    rw [List.length_take]
    omega
  have hparts := (List.take_append_drop (text.length - maxLength).toNat text).symm
  have hrest : (text.drop (text.length - maxLength).toNat).length = maxLength := by
    rw [List.length_drop]
    omega
  generalize text.take (text.length - maxLength).toNat = before at hbefore hparts
  generalize text.drop (text.length - maxLength).toNat = rest at hparts hrest ⊢
  by_cases hmem : 0x0A ∈ rest
  · obtain ⟨line, body, hline, hfirst⟩ := List.eq_append_cons_of_mem hmem
    have hfound : indexOf text 0x0A (text.length - maxLength) = text.length - maxLength + line.length := by
      rw [← hindex, ← hbefore]
      exact indexOf_append hfirst (hline ▸ hparts)
    have hcount : (line.length : Int) + 1 + body.length = maxLength := by
      rw [← hrest, hline, List.length_append, List.length_cons]
      push_cast
      ring
    -- A newline that is the last character is not cut at: nothing would be left.
    by_cases hcut : onNewline = true ∧ body ≠ []
    · right
      have hpos : 0 < body.length := List.length_pos_iff.mpr hcut.2
      refine ⟨hcut.1, line, body, hline, hfirst, hcut.2, ?_⟩
      simp only [cutOffIndex, hfound]
      rw [if_pos ⟨hcut.1, by omega, by omega⟩]
      omega
    · left
      constructor
      · simp only [cutOffIndex, hfound]
        rw [if_neg]
        rintro ⟨hnewline, -, hlast⟩
        apply hcut
        refine ⟨hnewline, ?_⟩
        rintro rfl
        rw [List.length_nil] at hcount
        omega
      · intro hnewline
        have hnil : body = [] := by
          by_contra hbody
          exact hcut ⟨hnewline, hbody⟩
        rwa [hline, hnil, List.dropLast_concat]
  · left
    have hmissing : indexOf text 0x0A (text.length - maxLength) = -1 := by
      rw [← hindex, ← hbefore]
      exact indexOf_missing hmem hparts
    constructor
    · simp only [cutOffIndex, hmissing]
      simp
    · intro _ hlast
      exact hmem (List.mem_of_mem_dropLast hlast)

/-- The text has a line behind its first newline. -/
def Cut (text : JavaString) (fromEnd onNewline : Bool) : Prop :=
  fromEnd = false ∧ onNewline = true ∧ 0x0A ∈ text.dropLast

/-- What is kept of a text that fills the room. -/
theorem exists_kept (h : 0 ≤ maxLength) (hlength : maxLength ≤ text.length) :
    ∃ kept, (if fromEnd then substring text 0 maxLength
        else substring text (cutOffIndex text maxLength onNewline) text.length) = .ok kept ∧
      IsBody text maxLength fromEnd onNewline kept ∧ kept.length ≤ maxLength ∧
      (kept = text ↔ text.length = maxLength ∧ ¬Cut text fromEnd onNewline) := by
  by_cases hend : fromEnd
  · subst hend
    refine ⟨text.take maxLength.toNat, substring_prefix h hlength, ?_, ?_, ?_⟩
    · refine ⟨List.take_prefix _ _, ?_⟩
      rw [List.length_take]
      omega
    · rw [List.length_take]
      omega
    · rw [List.take_eq_self_iff]
      simp only [Cut, Bool.true_eq_false, false_and, not_false_eq_true, and_true]
      omega
  · rw [Bool.not_eq_true] at hend
    subst hend
    -- The end is cut off by length, or behind the first newline in what the length leaves.
    rcases cutOffIndex_cases onNewline h hlength with
      ⟨hcut, hlines⟩ | ⟨hnewline, line, body, hline, hfirst, hbody, hcut⟩
    · have hsuffix := @substring_suffix text (text.length - maxLength) (by omega) (by omega)
      refine ⟨_, by rw [if_neg (by simp), hcut, hsuffix], ?_, ?_, ?_⟩
      · refine ⟨List.drop_suffix _ _, Or.inl ?_⟩
        rw [List.length_drop]
        omega
      · rw [List.length_drop]
        omega
      · constructor
        · intro hsame
          have hfull : text.length = maxLength := by
            have hlen := congrArg List.length hsame
            rw [List.length_drop] at hlen
            omega
          have hzero : (text.length - maxLength).toNat = 0 := by omega
          rw [hzero, List.drop_zero] at hlines
          exact ⟨hfull, fun hcut => hlines hcut.2.1 hcut.2.2⟩
        · rintro ⟨hfull, -⟩
          have hzero : (text.length - maxLength).toNat = 0 := by omega
          rw [hzero, List.drop_zero]
    · have hparts := List.take_append_drop (text.length - maxLength).toNat text
      rw [hline] at hparts
      have hlast : body <:+ text :=
        ⟨text.take (text.length - maxLength).toNat ++ (line ++ [0x0A]), by simpa using hparts⟩
      have hcount : (line.length : Int) + 1 + body.length = maxLength := by
        have hrest := congrArg List.length hline
        rw [List.length_drop, List.length_append, List.length_cons] at hrest
        omega
      have hkept : text.drop ((text.length : Int) - body.length).toNat = body := by
        have hindex : ((text.length : Int) - body.length).toNat = text.length - body.length := by omega
        rw [hindex, List.suffix_iff_eq_drop.mp hlast, List.length_drop]
        congr 1
        omega
      have hsuffix := @substring_suffix text (text.length - body.length) (by omega) (by omega)
      refine ⟨body, by rw [if_neg (by simp), hcut, hsuffix, hkept], ?_, by omega, ?_⟩
      · exact ⟨hlast, Or.inr ⟨hnewline, line, hline, hfirst⟩⟩
      · constructor
        · rintro rfl
          omega
        · rintro ⟨hfull, hwhole⟩
          have hzero : (text.length - maxLength).toNat = 0 := by omega
          rw [hzero, List.drop_zero] at hline
          refine absurd ⟨rfl, hnewline, ?_⟩ hwhole
          rw [hline, List.dropLast_append_of_ne_nil (by simp), List.dropLast_cons_of_ne_nil hbody]
          simp

/-- The limit leaves room behind the prefix, and the text does not just fill it.  A limit below the length of
the prefix must not be needed. -/
def Announceable (text : JavaString) (maxLength : Int) (fromEnd onNewline addPrefix : Bool) : Prop :=
  addPrefix →
    if maxLength < truncatedPrefix.length then text.length ≤ maxLength
    else text.length = maxLength - truncatedPrefix.length → Cut text fromEnd onNewline

theorem isBody_self (n : Int) : IsBody text n fromEnd onNewline text := by
  have hmin : min (text.length : Int) n ≤ text.length := min_le_left _ _
  rw [IsBody]
  split
  · exact ⟨List.prefix_rfl, hmin⟩
  · exact ⟨List.suffix_rfl, Or.inl hmin⟩

/-- A text is its own output if it fits. -/
theorem truncated_self_iff : Truncated text maxLength fromEnd onNewline addPrefix text ↔
    text.length ≤ maxLength := by
  apply Iff.intro fun h => h.1
  intro h
  exact ⟨h, text, isBody_self _, by simp⟩

/-- A part of the text that fits behind the prefix is announced unless it is the whole text. -/
theorem truncated_kept_iff {kept : JavaString}
    (hbody : IsBody text (room maxLength addPrefix) fromEnd onNewline kept)
    (hlength : kept.length ≤ room maxLength addPrefix) :
    Truncated text maxLength fromEnd onNewline addPrefix
        (if addPrefix then truncatedPrefix ++ kept else kept) ↔ (addPrefix → kept ≠ text) := by
  constructor
  · rintro ⟨-, body, -, houtput⟩ hadds rfl
    rw [if_pos hadds] at houtput
    by_cases hsame : body = kept
    · rw [if_neg (by simp [hsame]), hsame] at houtput
      have hlen := congrArg List.length houtput
      rw [List.length_append] at hlen
      have hpos : truncatedPrefix.length = 12 := rfl
      omega
    · rw [if_pos ⟨hadds, hsame⟩] at houtput
      exact hsame (List.append_cancel_left houtput).symm
  · intro hannounced
    by_cases hadds : addPrefix
    · rw [if_pos hadds]
      rw [room, if_pos hadds] at hlength
      refine ⟨?_, kept, hbody, by rw [if_pos ⟨hadds, hannounced hadds⟩]⟩
      rw [List.length_append]
      push_cast
      omega
    · rw [if_neg hadds]
      rw [room, if_neg hadds] at hlength
      exact ⟨hlength, kept, hbody, by rw [if_neg fun h => hadds h.1]⟩

theorem getTruncatedCommandOutput_eq (h : 0 ≤ maxLength) (hint : maxLength < 2 ^ 31) :
    getTruncatedCommandOutput (some text) maxLength fromEnd onNewline addPrefix =
      if room maxLength addPrefix < 0 ∨ text.length < room maxLength addPrefix then .ok (some text)
      else (if fromEnd then substring text 0 (room maxLength addPrefix)
          else substring text (cutOffIndex text (room maxLength addPrefix) onNewline) text.length) >>=
        fun kept => .ok (some (if addPrefix then truncatedPrefix ++ kept else kept)) := by
  have hroom : (if addPrefix then toInt32 (maxLength - truncatedPrefix.length) else maxLength) =
      room maxLength addPrefix := by
    rw [room]
    split
    · have htwelve : (truncatedPrefix.length : Int) = 12 := rfl
      rw [toInt32, htwelve, Int.emod_eq_of_lt (by omega) (by omega)]
      ring
    · rfl
  rw [getTruncatedCommandOutput]
  simp only [hroom]
  cases fromEnd <;> rfl

/-- The output of every text is what it should be exactly when the text can be announced. -/
theorem output_iff (h : 0 ≤ maxLength) (hint : maxLength < 2 ^ 31) :
    (∃ output, getTruncatedCommandOutput (some text) maxLength fromEnd onNewline addPrefix =
        .ok (some output) ∧ Truncated text maxLength fromEnd onNewline addPrefix output) ↔
      Announceable text maxLength fromEnd onNewline addPrefix := by
  have htwelve : (truncatedPrefix.length : Int) = 12 := rfl
  rw [getTruncatedCommandOutput_eq h hint]
  -- Without room for the prefix, and with a text shorter than its room, the text comes back as it is.
  by_cases hroom : room maxLength addPrefix < 0
  · rw [if_pos (Or.inl hroom)]
    have hneg : addPrefix = true ∧ maxLength < truncatedPrefix.length := by
      rw [room] at hroom
      split at hroom
      · exact ⟨‹_›, by omega⟩
      · omega
    constructor
    · rintro ⟨output, hret, houtput⟩
      cases hret
      intro _
      rw [if_pos hneg.2]
      exact truncated_self_iff.mp houtput
    · intro hann
      have hfits := hann hneg.1
      rw [if_pos hneg.2] at hfits
      exact ⟨text, rfl, truncated_self_iff.mpr hfits⟩
  · have hprefixed : addPrefix → ¬maxLength < truncatedPrefix.length ∧
        room maxLength addPrefix = maxLength - truncatedPrefix.length := by
      intro hadd
      rw [room, if_pos hadd] at hroom ⊢
      exact ⟨by omega, rfl⟩
    by_cases hshort : text.length < room maxLength addPrefix
    · rw [if_pos (Or.inr hshort)]
      constructor
      · rintro - hadd
        rw [if_neg (hprefixed hadd).1]
        intro hfull
        have heq := (hprefixed hadd).2
        omega
      · intro _
        refine ⟨text, rfl, truncated_self_iff.mpr ?_⟩
        rw [room] at hshort
        split at hshort <;> omega
    · rw [if_neg (by omega)]
      obtain ⟨kept, hkept, hbody, hlength, hsame⟩ := @exists_kept text (room maxLength addPrefix) fromEnd
        onNewline (by omega) (by omega)
      rw [hkept]
      have hann : Announceable text maxLength fromEnd onNewline addPrefix ↔ (addPrefix → kept ≠ text) := by
        apply forall_congr'
        intro hadd
        rw [if_neg (hprefixed hadd).1, ne_eq, hsame, (hprefixed hadd).2]
        tauto
      rw [hann, ← truncated_kept_iff hbody hlength]
      constructor
      · rintro ⟨output, hret, houtput⟩
        cases hret
        exact houtput
      · intro houtput
        exact ⟨_, rfl, houtput⟩

end Truncation

end DataUtils

/-! ## The result of a command -/

namespace ResultSender

open DataUtils

/-- What is put into the bundle, under the keys of the configuration. -/
structure ResultBundle where
  stdout : JavaString
  stdoutOriginalLength : JavaString
  stderr : JavaString
  stderrOriginalLength : JavaString
  exitCode : Option Int
  errCode : Int
  errmsg : Option JavaString
deriving DecidableEq

def pendingIntentParameterError : ResultError :=
  ⟨ascii "Function Error", 100, some (ascii "The context, resultConfig, resultData, " ++
    ascii "resultConfig.resultPendingIntent or resultConfig.resultBundleKey parameter passed to " ++
    ascii "\"sendCommandResultDataWithPendingIntent\" is null or empty."), []⟩

/-- The shorter text, if there is one. -/
def shorter (truncated : Option JavaString) (original : JavaString) : JavaString :=
  match truncated with
  | some text => if text.length < original.length then text else original
  | none => original

/-- The texts of both streams for the limit.  Alone a stream has all of it. -/
def truncateStreams (stdout stderr : JavaString) : Java (Option JavaString × Option JavaString) :=
  if stderr = [] then do
    let truncatedStdout ←
      getTruncatedCommandOutput (some stdout) transactionSizeLimitInBytes false false false
    .ok (truncatedStdout, none)
  else if stdout = [] then do
    let truncatedStderr ←
      getTruncatedCommandOutput (some stderr) transactionSizeLimitInBytes false false false
    .ok (none, truncatedStderr)
  else do
    let truncatedStdout ←
      getTruncatedCommandOutput (some stdout) (transactionSizeLimitInBytes / 2) false false false
    let truncatedStderr ←
      getTruncatedCommandOutput (some stderr) (transactionSizeLimitInBytes / 2) false false false
    .ok (truncatedStdout, truncatedStderr)

/-- The bundle that is sent, or the error that is returned. -/
def sendCommandResultDataWithPendingIntent (resultConfig : ResultConfig)
    (resultBundleKey : Option JavaString) (resultData : ResultData) :
    Java (Except ResultError ResultBundle) :=
  if resultConfig.resultPendingIntent = false ∨ resultBundleKey = none then
    .ok (.error pendingIntentParameterError)
  else do
    let (truncatedStdout, truncatedStderr) ← truncateStreams resultData.stdout resultData.stderr
    let resultDataErrmsg :=
      if resultData.isStateFailed ∧ resultData.getErrorsListLogString ≠ [] then
        some resultData.getErrorsListLogString
      else none
    let truncatedErrmsg ←
      getTruncatedCommandOutput resultDataErrmsg (transactionSizeLimitInBytes / 4) true false false
    .ok (.ok {
      stdout := shorter truncatedStdout resultData.stdout
      stdoutOriginalLength := decimal resultData.stdout.length
      stderr := shorter truncatedStderr resultData.stderr
      stderrOriginalLength := decimal resultData.stderr.length
      exitCode := resultData.exitCode
      errCode := resultData.getErrCode
      errmsg := resultDataErrmsg.map (shorter truncatedErrmsg) })

section Bundle

theorem exists_shorter (text : JavaString) (limit : Int) (fromEnd : Bool) (h : 0 ≤ limit)
    (hint : limit < 2 ^ 31) :
    ∃ output, getTruncatedCommandOutput (some text) limit fromEnd false false = .ok (some output) ∧
      (shorter (some output) text).length ≤ limit := by
  have hann : Announceable text limit fromEnd false false := by
    rintro ⟨⟩
  obtain ⟨output, houtput, hlength, -⟩ := (output_iff h hint).mpr hann
  refine ⟨output, houtput, ?_⟩
  dsimp only [shorter]
  split <;> omega

/-- Both streams together are within the limit. -/
theorem exists_streams (stdout stderr : JavaString) :
    ∃ truncated, truncateStreams stdout stderr = .ok truncated ∧
      ((shorter truncated.1 stdout).length + (shorter truncated.2 stderr).length : Int) ≤
        transactionSizeLimitInBytes := by
  have hlimit : transactionSizeLimitInBytes = 102400 := rfl
  have hhalf : transactionSizeLimitInBytes / 2 = 51200 := rfl
  rw [truncateStreams, hhalf, hlimit]
  by_cases hstderr : stderr = []
  · obtain ⟨output, houtput, hlength⟩ :=
      exists_shorter stdout 102400 false (by decide) (by decide)
    refine ⟨(some output, none), by rw [if_pos hstderr, houtput]; rfl, ?_⟩
    rw [hstderr]
    simpa [shorter] using hlength
  · by_cases hstdout : stdout = []
    · obtain ⟨output, houtput, hlength⟩ :=
        exists_shorter stderr 102400 false (by decide) (by decide)
      refine ⟨(none, some output), by rw [if_neg hstderr, if_pos hstdout, houtput]; rfl, ?_⟩
      rw [hstdout]
      simpa [shorter] using hlength
    · obtain ⟨first, hfirst, hfirstLength⟩ :=
        exists_shorter stdout 51200 false (by decide) (by decide)
      obtain ⟨second, hsecond, hsecondLength⟩ :=
        exists_shorter stderr 51200 false (by decide) (by decide)
      refine ⟨(some first, some second), ?_, ?_⟩
      · rw [if_neg hstderr, if_neg hstdout, hfirst, hsecond]
        rfl
      · dsimp only
        omega

/-- The texts of a bundle. -/
def ResultBundle.chars (b : ResultBundle) : Nat :=
  b.stdout.length + b.stderr.length + (b.errmsg.getD []).length

/-- A bundle has at most five quarters of the limit. -/
theorem bundle_chars {resultConfig : ResultConfig} {resultBundleKey : Option JavaString}
    (resultData : ResultData) (hconfig : resultConfig.resultPendingIntent = true)
    (hkey : resultBundleKey ≠ none) :
    ∃ bundle, sendCommandResultDataWithPendingIntent resultConfig resultBundleKey resultData =
        .ok (.ok bundle) ∧ 4 * (bundle.chars : Int) ≤ 5 * transactionSizeLimitInBytes := by
  have hquarter : transactionSizeLimitInBytes / 4 = 25600 := rfl
  have hlimit : transactionSizeLimitInBytes = 102400 := rfl
  obtain ⟨truncated, htruncated, hstreams⟩ := exists_streams resultData.stdout resultData.stderr
  rw [sendCommandResultDataWithPendingIntent, if_neg (by simp [hconfig, hkey]), htruncated, hquarter]
  by_cases hfailed : resultData.isStateFailed = true ∧ resultData.getErrorsListLogString ≠ []
  · obtain ⟨output, houtput, hlength⟩ := exists_shorter resultData.getErrorsListLogString 25600 true
      (by decide) (by decide)
    simp only [if_pos hfailed, houtput, ok_bind]
    refine ⟨_, rfl, ?_⟩
    simp only [ResultBundle.chars, Option.map_some, Option.getD_some]
    push_cast
    omega
  · simp only [if_neg hfailed]
    refine ⟨_, rfl, ?_⟩
    simp only [ResultBundle.chars, Option.map_none, Option.getD_none, List.length_nil]
    push_cast
    omega

/-- Truncation does what it should exactly for the texts that can be announced, and the texts of a bundle are
bounded in any case. -/
theorem truncation_iff (text : JavaString) (maxLength : Int) (fromEnd onNewline addPrefix : Bool)
    (h : 0 ≤ maxLength) (hint : maxLength < 2 ^ 31) :
    ((∃ output, getTruncatedCommandOutput (some text) maxLength fromEnd onNewline addPrefix =
        .ok (some output) ∧ Truncated text maxLength fromEnd onNewline addPrefix output) ↔
      Announceable text maxLength fromEnd onNewline addPrefix) ∧
    ∀ resultConfig resultBundleKey resultData, resultConfig.resultPendingIntent = true →
      resultBundleKey ≠ none →
        ∃ bundle, sendCommandResultDataWithPendingIntent resultConfig resultBundleKey resultData =
          .ok (.ok bundle) ∧ 4 * (bundle.chars : Int) ≤ 5 * transactionSizeLimitInBytes :=
  ⟨output_iff h hint, fun _ _ resultData hconfig hkey => bundle_chars resultData hconfig hkey⟩

/-- A text that just fills the room is cut behind its newline, and not announced rightly without one. -/
theorem truncation_lines :
    (∃ output, getTruncatedCommandOutput (some (ascii "a\nb")) 15 false true true = .ok (some output) ∧
      Truncated (ascii "a\nb") 15 false true true output) ∧
    ¬∃ output, getTruncatedCommandOutput (some (ascii "abc")) 15 false true true = .ok (some output) ∧
      Truncated (ascii "abc") 15 false true true output := by
  obtain ⟨hlines, -⟩ := truncation_iff (ascii "a\nb") 15 false true true (by decide) (by decide)
  obtain ⟨hline, -⟩ := truncation_iff (ascii "abc") 15 false true true (by decide) (by decide)
  refine ⟨hlines.mpr fun _ => ?_, fun h => ?_⟩
  · rw [if_neg (by decide)]
    exact fun _ => ⟨rfl, rfl, by decide⟩
  · have hcut := hline.mp h rfl
    rw [if_neg (by decide)] at hcut
    exact absurd (hcut (by decide)).2.2 (by decide)

/-- The whole text, and before it that it is truncated. -/
theorem full_text_announced :
    getTruncatedCommandOutput (some (ascii "abc")) 15 true false true =
        .ok (some (ascii "(truncated) abc")) ∧
      ¬Truncated (ascii "abc") 15 true false true (ascii "(truncated) abc") := by
  have houtput : getTruncatedCommandOutput (some (ascii "abc")) 15 true false true =
      .ok (some (ascii "(truncated) abc")) := rfl
  apply And.intro houtput
  intro htruncated
  have hann := (output_iff (by decide) (by decide)).mp ⟨_, houtput, htruncated⟩ rfl
  rw [if_neg (by decide)] at hann
  cases (hann rfl).1

end Bundle

end ResultSender

end XoDos
