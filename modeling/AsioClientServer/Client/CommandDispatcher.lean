import AsioClientServer.Lib.Varint
import Mathlib.Data.List.DropRight

/-!
# `acs::cmd::CommandDispatcher`

How a line of the command loop is taken apart (`CommandDispatcher.cpp`). The code works on a
`std::string_view`: it looks for the first or the last byte that is not blank, and removes as many
bytes as the position says. Positions and sizes are `std::size_t`: not found is the largest of
them, and differences wrap around.

* `trimWhitespace_trim`: trimming takes exactly the blanks at the two ends.
* `dispatchCommand_iff`: which lines are echo commands, and with which text.
-/

namespace Acs

/-! ## `std::string_view` -/

/-- The number of `std::size_t` values, on the 64-bit platforms the program is built for. -/
def sizeModulus : Nat := 2 ^ 64

/-- `std::string_view::npos` -/
def npos : Nat := sizeModulus - 1

/-- The difference of two `std::size_t` values. It wraps around, as that of unsigned values does. -/
def sizeSub (a b : Nat) : Nat :=
  (a + sizeModulus - b) % sizeModulus

/-- `find_first_not_of`: the position of the first byte that is not one of the characters, or
`npos`. -/
def findFirstNotOf (sv chars : Bytes) : Nat :=
  (sv.findIdx? (· ∉ chars)).getD npos

/-- `find_last_not_of`: the position of the last byte that is not one of the characters, or
`npos`. -/
def findLastNotOf (sv chars : Bytes) : Nat :=
  match sv.reverse.findIdx? (· ∉ chars) with
  | some i => sv.length - 1 - i
  | none => npos

/-- `remove_prefix`. A count beyond the size of the view is undefined behaviour in the source, so
every call has to come with the proof that its count is in range. -/
def removePrefix (sv : Bytes) (n : Nat) (_hn : n ≤ sv.length) : Bytes :=
  sv.drop n

/-- `remove_suffix`, with the same precondition as `removePrefix`. -/
def removeSuffix (sv : Bytes) (n : Nat) (_hn : n ≤ sv.length) : Bytes :=
  sv.take (sv.length - n)

/-! ## `acs::misc` -/

/-- The characters `" \t"`. -/
def blanks : Bytes := [32, 9]

/-- The count `trimWhitespace` gives to `remove_prefix`: the position that was found, which may be
`npos`, cut down to the size. -/
def trimPrefixCount (sv : Bytes) : Nat :=
  min (findFirstNotOf sv blanks) sv.length

/-- The count `trimWhitespace` gives to `remove_suffix`: `size - find_last_not_of(...) - 1`, which
wraps around when nothing is found, cut down to the size. -/
def trimSuffixCount (sv : Bytes) : Nat :=
  let size := sv.length
  min (sizeSub (sizeSub size (findLastNotOf sv blanks)) 1) size

/-- The count of the left trim is in range. -/
theorem trimPrefixCount_le (sv : Bytes) : trimPrefixCount sv ≤ sv.length :=
  Nat.min_le_right _ _

/-- The count of the right trim is in range, whatever the subtractions have wrapped to. -/
theorem trimSuffixCount_le (sv : Bytes) : trimSuffixCount sv ≤ sv.length :=
  Nat.min_le_right _ _

/-- `trimWhitespace`: the left trim comes first, and the right trim works on what it leaves. -/
def trimWhitespace (sv : Bytes) (right : Bool := true) (left : Bool := true) : Bytes :=
  let sv := if left then removePrefix sv (trimPrefixCount sv) (trimPrefixCount_le sv) else sv
  if right then removeSuffix sv (trimSuffixCount sv) (trimSuffixCount_le sv) else sv

/-- `startsWith`: `rfind(prefix, 0)` looks for the prefix at position 0 only. A string that is
shorter than the prefix does not start with it. -/
def startsWith (s pre : Bytes) : Bool :=
  pre.isPrefixOf s

theorem length_le_of_startsWith {s pre : Bytes} (h : startsWith s pre = true) :
    pre.length ≤ s.length :=
  (List.isPrefixOf_iff_prefix.mp h).length_le

/-! ## Dispatching -/

/-- `_ECHO_CMD_PREFIX`: the characters `">echo"`. -/
def echoCmdPrefix : Bytes := [62, 101, 99, 104, 111]

/-- `dispatchCommand`: the text the echo handler is called with, `none` when the command is not
supported. -/
def dispatchCommand (commandString : Bytes) : Option Bytes :=
  let commandString := trimWhitespace commandString
  if h : startsWith commandString echoCmdPrefix then
    some (trimWhitespace
      (removePrefix commandString echoCmdPrefix.length (length_le_of_startsWith h)) false)
  else none

/-- Trimming never lengthens a string, whichever side is trimmed. -/
theorem trimWhitespace_length_le (sv : Bytes) (right left : Bool) :
    (trimWhitespace sv right left).length ≤ sv.length := by
  cases right <;> cases left <;>
    simp only [trimWhitespace, removePrefix, removeSuffix, if_true, if_false, Bool.false_eq_true,
      List.length_take, List.length_drop] <;> omega

/-- The text of a command is shorter than its line by the command prefix at least. -/
theorem dispatchCommand_length {line text : Bytes} (h : dispatchCommand line = some text) :
    text.length + 5 ≤ line.length := by
  simp only [dispatchCommand] at h
  split at h
  · next hprefix =>
    obtain rfl := Option.some.inj h
    have hlen := length_le_of_startsWith hprefix
    have hline := trimWhitespace_length_le line true true
    have htext := trimWhitespace_length_le
      (removePrefix (trimWhitespace line) echoCmdPrefix.length hlen) false true
    have hfive : echoCmdPrefix.length = 5 := rfl
    have hremove : (removePrefix (trimWhitespace line) echoCmdPrefix.length hlen).length
        = (trimWhitespace line).length - echoCmdPrefix.length := List.length_drop
    omega
  · cases h

/-! ## Trimming -/

/-- Both trims, as pieces of the list: the right count is taken of what the left trim has left. With
the counts known, this is the core of the string. -/
theorem trimWhitespace_both (sv : Bytes) :
    trimWhitespace sv = (sv.drop (trimPrefixCount sv)).take ((sv.drop (trimPrefixCount sv)).length
      - trimSuffixCount (sv.drop (trimPrefixCount sv))) := by
  simp only [trimWhitespace, removePrefix, removeSuffix, if_true]

/-- The left trim alone, which the text of a command gets. -/
theorem trimWhitespace_left (sv : Bytes) :
    trimWhitespace sv false = sv.drop (trimPrefixCount sv) := by
  simp only [trimWhitespace, removePrefix, if_true, Bool.false_eq_true, if_false]

/-- All bytes are blanks. The empty string is blank too. -/
def Blank (bs : Bytes) : Prop :=
  ∀ b ∈ bs, b ∈ blanks

/-- Neither the first nor the last byte is blank. What stands in between may be. -/
structure Trimmed (t : Bytes) : Prop where
  head : ∀ b, t.head? = some b → b ∉ blanks
  last : ∀ b, t.getLast? = some b → b ∉ blanks

section Trim

variable {blank rest sv : Bytes}

/-- The search for the first byte that is not blank goes through the blanks at the front, and finds
nothing where there is nothing else. -/
theorem findIdx_blank (hblank : Blank blank) (hrest : ∀ b, rest.head? = some b → b ∉ blanks) :
    (blank ++ rest).findIdx? (· ∉ blanks) = if rest = [] then none else some blank.length := by
  have hnone : blank.findIdx? (· ∉ blanks) = none := by
    rw [List.findIdx?_eq_none_iff]
    intro b hb
    simpa using hblank b hb
  rw [List.findIdx?_append, hnone]
  cases rest with
  | nil => rfl
  | cons b rest =>
    have hb : b ∉ blanks := hrest b rfl
    simp [List.findIdx?_cons, hb]

/-- The count of the left trim is the number of blanks at the front, also when there is nothing
else. -/
theorem trimPrefixCount_append (hlen : (blank ++ rest).length < npos) (hblank : Blank blank)
    (hrest : ∀ b, rest.head? = some b → b ∉ blanks) :
    trimPrefixCount (blank ++ rest) = blank.length := by
  rw [trimPrefixCount, findFirstNotOf, findIdx_blank hblank hrest]
  rw [List.length_append] at hlen ⊢
  split
  · next hnil =>
    simp only [Option.getD_none, hnil, List.length_nil] at hlen ⊢
    omega
  · simp only [Option.getD_some]
    omega

/-- The count of the right trim is the number of blanks at the back: when there is nothing else,
`size - npos - 1` wraps around to the size. -/
theorem trimSuffixCount_append (hlen : (rest ++ blank).length < npos) (hblank : Blank blank)
    (hrest : ∀ b, rest.getLast? = some b → b ∉ blanks) :
    trimSuffixCount (rest ++ blank) = blank.length := by
  have hreverse : (rest ++ blank).reverse.findIdx? (· ∉ blanks)
      = if rest = [] then none else some blank.length := by
    rw [List.reverse_append, findIdx_blank (fun b hb => hblank b (List.mem_reverse.mp hb))
      (fun b hb => hrest b (by rwa [List.head?_reverse] at hb))]
    simp only [List.reverse_eq_nil_iff, List.length_reverse]
  rw [trimSuffixCount, findLastNotOf, hreverse]
  simp only [npos, sizeModulus, List.length_append] at hlen
  split
  · next heq =>
    split at heq
    · cases heq
    · next hne =>
      -- the last byte that is not blank is the last one of `rest`
      obtain rfl := Option.some.inj heq
      have hpos : 0 < rest.length := List.length_pos_iff.mpr hne
      simp only [List.length_append, sizeSub, sizeModulus]
      omega
  · next heq =>
    split at heq
    · next hnil =>
      simp only [hnil, List.nil_append, List.length_nil, sizeSub, npos, sizeModulus] at hlen ⊢
      omega
    · cases heq

/-- The left trim takes the blanks at the front, and nothing else. -/
theorem trimWhitespace_left_append (hlen : (blank ++ rest).length < npos) (hblank : Blank blank)
    (hrest : ∀ b, rest.head? = some b → b ∉ blanks) :
    trimWhitespace (blank ++ rest) false = rest := by
  rw [trimWhitespace_left, trimPrefixCount_append hlen hblank hrest, List.drop_left]

/-- The right trim leaves what stands before the blanks at the back. -/
theorem take_trimSuffixCount (hlen : (rest ++ blank).length < npos)
    (hblank : Blank blank) (hrest : ∀ b, rest.getLast? = some b → b ∉ blanks) :
    (rest ++ blank).take ((rest ++ blank).length - trimSuffixCount (rest ++ blank)) = rest := by
  rw [trimSuffixCount_append hlen hblank hrest, List.length_append, Nat.add_sub_cancel,
    List.take_left]

/-- **Trimming takes the blanks at both ends**, and nothing else. -/
theorem trimWhitespace_trim {left core right : Bytes}
    (hlen : (left ++ core ++ right).length < npos) (hleft : Blank left) (hcore : Trimmed core)
    (hright : Blank right) : trimWhitespace (left ++ core ++ right) = core := by
  rw [trimWhitespace_both]
  by_cases hnil : core = []
  · -- everything is blank, and the left trim takes it all
    subst hnil
    have hblank : Blank (left ++ right) := fun b hb =>
      (List.mem_append.mp hb).elim (hleft b) (hright b)
    have hall : left ++ [] ++ right = (left ++ right) ++ [] := by simp
    rw [hall] at hlen ⊢
    rw [trimPrefixCount_append hlen hblank (by simp), List.drop_left]
    have hlen' : ([] ++ [] : Bytes).length < npos := by decide
    exact @take_trimSuffixCount [] [] hlen' (by simp [Blank]) (by simp)
  · have hhead : (core ++ right).head? = core.head? := List.head?_append_of_ne_nil core hnil
    rw [List.append_assoc] at hlen ⊢
    rw [trimPrefixCount_append hlen hleft (by rw [hhead]; exact hcore.head), List.drop_left]
    rw [List.length_append] at hlen
    exact take_trimSuffixCount (by omega) hright hcore.last

/-- Every string is blank at its two ends, and trimmed in between. -/
theorem exists_trimmed (sv : Bytes) : ∃ left core right, sv = left ++ core ++ right ∧
    Blank left ∧ Trimmed core ∧ Blank right := by
  refine ⟨sv.takeWhile (· ∈ blanks), (sv.dropWhile (· ∈ blanks)).rdropWhile (· ∈ blanks),
    (sv.dropWhile (· ∈ blanks)).rtakeWhile (· ∈ blanks), ?_, ?_, ⟨?_, ?_⟩, ?_⟩
  · rw [List.append_assoc, List.rdropWhile_append_rtakeWhile, List.takeWhile_append_dropWhile]
  · intro b hb
    simpa using List.mem_takeWhile_imp hb
  · intro b hb
    -- the first byte of what the left trim leaves
    obtain ⟨tail, htail⟩ := List.rdropWhile_prefix (· ∈ blanks) (l := sv.dropWhile (· ∈ blanks))
    have hhead : (sv.dropWhile (· ∈ blanks)).head? = some b := by
      rw [← htail, List.head?_append, hb]
      rfl
    have hnot := List.head?_dropWhile_not (· ∈ blanks) sv
    rw [hhead] at hnot
    simpa using hnot
  · intro b hb
    have hne : (sv.dropWhile (· ∈ blanks)).rdropWhile (· ∈ blanks) ≠ [] := by
      intro hnil
      rw [hnil] at hb
      cases hb
    have hnot := List.rdropWhile_last_not _ _ hne
    rw [List.getLast?_eq_getLast_of_ne_nil hne] at hb
    rw [Option.some.inj hb] at hnot
    simpa using hnot
  · intro b hb
    simpa using List.mem_rtakeWhile_imp hb

end Trim

/-! ## Echo commands -/

/-- The line is the command prefix and the text, with blanks around them. The text itself has no
blanks at its ends, so the line determines it. -/
def IsEchoCommand (line t : Bytes) : Prop :=
  ∃ b₁ b₂ b₃, line = b₁ ++ echoCmdPrefix ++ b₂ ++ t ++ b₃ ∧ Blank b₁ ∧ Blank b₂ ∧ Blank b₃ ∧
    Trimmed t

section Dispatch

variable {line t : Bytes}

theorem trimmed_echoCmdPrefix : Trimmed echoCmdPrefix := by
  constructor
  · intro b hb
    obtain rfl := Option.some.inj hb
    decide
  · intro b hb
    obtain rfl := Option.some.inj hb
    decide

/-- A command prefix with more behind it is trimmed when that is. -/
theorem trimmed_append {b : Bytes} (ht : Trimmed t) (hne : t ≠ []) :
    Trimmed (echoCmdPrefix ++ b ++ t) := by
  constructor
  · intro c hc
    exact trimmed_echoCmdPrefix.head c hc
  · intro c hc
    rw [List.getLast?_append, List.getLast?_eq_getLast_of_ne_nil hne, Option.some_or] at hc
    exact ht.last c (by rw [List.getLast?_eq_getLast_of_ne_nil hne, hc])

/-- **Dispatching a line is looking at its core**, what stands between the blanks at its ends. The
blanks in front of the command prefix and those at the end of the line play no part. -/
theorem dispatchCommand_trim {left core right : Bytes}
    (hlen : (left ++ core ++ right).length < npos) (hleft : Blank left) (hcore : Trimmed core)
    (hright : Blank right) :
    dispatchCommand (left ++ core ++ right)
      = if echoCmdPrefix <+: core then some (trimWhitespace (core.drop 5) false) else none := by
  simp only [dispatchCommand, trimWhitespace_trim hlen hleft hcore hright, startsWith,
    List.isPrefixOf_iff_prefix]
  rfl

/-- What the handler is called with is what the specification says: the text is the rest of the core
behind the prefix, without the blanks at its front. -/
theorem IsEchoCommand.of_dispatch (hlen : line.length < npos)
    (h : dispatchCommand line = some t) : IsEchoCommand line t := by
  obtain ⟨left, core, right, rfl, hleft, hcore, hright⟩ := exists_trimmed line
  rw [dispatchCommand_trim hlen hleft hcore hright] at h
  split at h
  · next hprefix =>
    obtain ⟨rest, rfl⟩ := hprefix
    obtain rfl := Option.some.inj h
    have hrest : (echoCmdPrefix ++ rest).drop 5 = rest := List.drop_left' rfl
    -- the blanks between the command prefix and the text
    have hsplit : rest = rest.takeWhile (· ∈ blanks) ++ rest.dropWhile (· ∈ blanks) :=
      List.takeWhile_append_dropWhile.symm
    have hblank : Blank (rest.takeWhile (· ∈ blanks)) := fun b hb => by
      simpa using List.mem_takeWhile_imp hb
    have hhead : ∀ b, (rest.dropWhile (· ∈ blanks)).head? = some b → b ∉ blanks := fun b hb => by
      have hnot := List.head?_dropWhile_not (· ∈ blanks) rest
      rw [hb] at hnot
      simpa using hnot
    have hlast : ∀ b, (rest.dropWhile (· ∈ blanks)).getLast? = some b → b ∉ blanks := by
      intro b hb
      apply hcore.last b
      rw [hsplit, ← List.append_assoc, List.getLast?_append, hb, Option.some_or]
    have htrim : trimWhitespace rest false = rest.dropWhile (· ∈ blanks) := by
      have hle : rest.length < npos := by
        simp only [List.length_append] at hlen
        omega
      have := trimWhitespace_left_append (by rw [← hsplit]; exact hle) hblank hhead
      rwa [← hsplit] at this
    rw [hrest, htrim]
    refine ⟨left, _, right, ?_, hleft, hblank, hright, hhead, hlast⟩
    have hline : left ++ (echoCmdPrefix ++ rest) ++ right = left ++ (echoCmdPrefix ++
        (rest.takeWhile (· ∈ blanks) ++ rest.dropWhile (· ∈ blanks))) ++ right := by
      rw [← hsplit]
    rw [hline]
    simp only [List.append_assoc]
  · cases h

/-- What the specification says is what the handler is called with, however many blanks there
are. -/
theorem IsEchoCommand.dispatch (hlen : line.length < npos) (h : IsEchoCommand line t) :
    dispatchCommand line = some t := by
  obtain ⟨b₁, b₂, b₃, rfl, h₁, h₂, h₃, ht⟩ := h
  by_cases hnil : t = []
  · -- the blanks before and after an empty text all stand behind the command prefix
    subst hnil
    have hblank : Blank (b₂ ++ b₃) := fun b hb => (List.mem_append.mp hb).elim (h₂ b) (h₃ b)
    have hline : b₁ ++ echoCmdPrefix ++ b₂ ++ [] ++ b₃ = b₁ ++ echoCmdPrefix ++ (b₂ ++ b₃) := by
      simp
    rw [hline] at hlen ⊢
    rw [dispatchCommand_trim hlen h₁ trimmed_echoCmdPrefix hblank, if_pos List.prefix_rfl]
    rfl
  · -- with a text, the outer trim ends at it, and only the blanks after the command prefix are left
    have hline : b₁ ++ echoCmdPrefix ++ b₂ ++ t ++ b₃
        = b₁ ++ (echoCmdPrefix ++ b₂ ++ t) ++ b₃ := by
      simp
    rw [hline] at hlen ⊢
    have hrest : (echoCmdPrefix ++ b₂ ++ t).drop 5 = b₂ ++ t := by
      rw [List.append_assoc]
      exact List.drop_left' rfl
    have hle : (b₂ ++ t).length < npos := by
      simp only [List.length_append] at hlen ⊢
      omega
    rw [dispatchCommand_trim hlen h₁ (trimmed_append ht hnil) h₃,
      if_pos ⟨b₂ ++ t, (List.append_assoc _ _ _).symm⟩, hrest,
      trimWhitespace_left_append hle h₂ ht.head]

/-- The counts of `trimWhitespace` are the numbers of blanks at the two ends. -/
theorem trimCounts (sv : Bytes) (hlen : sv.length < npos) :
    trimPrefixCount sv = (sv.takeWhile (· ∈ blanks)).length ∧
      trimSuffixCount sv = (sv.rtakeWhile (· ∈ blanks)).length := by
  constructor
  · -- the view is split at the byte that is found: blanks on the one side, and no blank next to
    -- them
    have hsplit : sv.takeWhile (· ∈ blanks) ++ sv.dropWhile (· ∈ blanks) = sv :=
      List.takeWhile_append_dropWhile
    have hlen' : (sv.takeWhile (· ∈ blanks) ++ sv.dropWhile (· ∈ blanks)).length < npos := by
      rw [hsplit]
      exact hlen
    have hcount := trimPrefixCount_append hlen'
      (fun b hb => by simpa using List.mem_takeWhile_imp hb)
      (fun b hb => by
        have hnot := List.head?_dropWhile_not (· ∈ blanks) sv
        rw [hb] at hnot
        simpa using hnot)
    rwa [hsplit] at hcount
  · have hsplit : sv.rdropWhile (· ∈ blanks) ++ sv.rtakeWhile (· ∈ blanks) = sv :=
      List.rdropWhile_append_rtakeWhile
    have hlen' : (sv.rdropWhile (· ∈ blanks) ++ sv.rtakeWhile (· ∈ blanks)).length < npos := by
      rw [hsplit]
      exact hlen
    have hcount := trimSuffixCount_append hlen'
      (fun b hb => by simpa using List.mem_rtakeWhile_imp hb)
      (fun b hb => by
        have hne : sv.rdropWhile (· ∈ blanks) ≠ [] := by
          intro hnil
          rw [hnil] at hb
          cases hb
        have hnot := List.rdropWhile_last_not _ _ hne
        rw [List.getLast?_eq_getLast_of_ne_nil hne] at hb
        rw [Option.some.inj hb] at hnot
        simpa using hnot)
    rwa [hsplit] at hcount

end Dispatch

/-- **Command parsing is exact.** For every line: the echo handler is called exactly when the line
is an echo command, with its text, and a line has at most one text. In every call of
`trimWhitespace` the counts are the numbers of blanks at the ends of its argument, so no more than
its length. -/
theorem dispatchCommand_iff {line : Bytes} (hlen : line.length < 2 ^ 64 - 1) :
    (∀ t, dispatchCommand line = some t ↔ IsEchoCommand line t) ∧
    (∀ t t', IsEchoCommand line t → IsEchoCommand line t' → t = t') ∧
    (dispatchCommand line = none ↔ ¬ ∃ t, IsEchoCommand line t) ∧
    ∀ sv, sv <:+: line →
      trimPrefixCount sv = (sv.takeWhile (· ∈ blanks)).length ∧ trimPrefixCount sv ≤ sv.length ∧
      trimSuffixCount sv = (sv.rtakeWhile (· ∈ blanks)).length ∧
        trimSuffixCount sv ≤ sv.length := by
  have hiff : ∀ t, dispatchCommand line = some t ↔ IsEchoCommand line t := fun t =>
    ⟨IsEchoCommand.of_dispatch hlen, IsEchoCommand.dispatch hlen⟩
  refine ⟨hiff, ?_, ?_, ?_⟩
  · intro t t' ht ht'
    have heq := (ht.dispatch hlen).symm.trans (ht'.dispatch hlen)
    exact Option.some.inj heq
  · rw [← Option.not_isSome_iff_eq_none, Option.isSome_iff_exists]
    simp only [hiff]
  · intro sv hsv
    obtain ⟨hleft, hright⟩ := trimCounts sv (hsv.length_le.trans_lt hlen)
    exact ⟨hleft, trimPrefixCount_le sv, hright, trimSuffixCount_le sv⟩

/-- A line with blanks everywhere, one without a text, and one that is no command. -/
theorem dispatchCommand_lines :
    dispatchCommand [9, 62, 101, 99, 104, 111, 32, 32, 97, 32, 98, 9] = some [97, 32, 98] ∧
      (dispatchCommand [62, 101, 99, 104, 111, 32] = some [] ↔
        IsEchoCommand [62, 101, 99, 104, 111, 32] []) ∧
      dispatchCommand [32, 62, 101, 99, 104] = none := by
  refine ⟨?_, (dispatchCommand_iff (by decide)).1 _, by decide⟩
  refine ((dispatchCommand_iff (by decide)).1 [97, 32, 98]).mpr
    ⟨[9], [32, 32], [9], rfl, ?_, ?_, ?_, ?_, ?_⟩
  all_goals simp [Blank, blanks]

end Acs
