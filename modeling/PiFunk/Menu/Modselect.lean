import PiFunk.Menu.Assistant

/-!
# The modulation that is selected and the one that is started

`modulationselect` sets `mod` to `"fm"` or `"am"`, and `modselect` compares `mod` with both.
`strcmp` is zero for equal strings, while the branches of `modselect` are entered for a difference:
only `"fm"` gets past the first one, and that is not `"am"`.
-/

namespace PiFunk.Menu

open FuelLoop

/-! ## The comparison -/

/-- The characters differ first where one list has ended or where both go on differently. -/
theorem strcmp_go_eq_zero_iff {first second : List Byte} (hfirst : (0 : Byte) ∉ first)
    (hsecond : (0 : Byte) ∉ second) : strcmp.go first second = 0 ↔ first = second := by
  have hnonzero (character : Byte) (hcharacter : character ≠ 0) : character.toNat ≠ 0 := by
    intro hzero
    exact hcharacter (BitVec.eq_of_toNat_eq hzero)
  induction first generalizing second with
  | nil =>
    cases second with
    | nil => simp [strcmp.go]
    | cons other others =>
      have hother := hnonzero other (List.ne_of_not_mem_cons hsecond).symm
      simp [strcmp.go]
      omega
  | cons character rest ih =>
    cases second with
    | nil =>
      have hcharacter := hnonzero character (List.ne_of_not_mem_cons hfirst).symm
      simp [strcmp.go]
      omega
    | cons other others =>
      have hrest := ih (List.not_mem_of_not_mem_cons hfirst)
        (List.not_mem_of_not_mem_cons hsecond)
      by_cases hsame : character = other
      · simp [strcmp.go, hsame, hrest]
      · have hdifferent : character.toNat ≠ other.toNat := mt BitVec.eq_of_toNat_eq hsame
        simp only [strcmp.go, List.cons.injEq, hsame, false_and, iff_false, if_false]
        omega

theorem strcmp_eq_zero_iff (first second : CString) : strcmp first second = 0 ↔ first = second := by
  rw [strcmp, strcmp_go_eq_zero_iff first.no_nul second.no_nul]
  constructor
  · intro hchars
    cases first
    cases second
    exact CString.mk.injEq .. ▸ hchars
  · exact congrArg CString.chars

theorem truth_strcmp_iff (first second : CString) :
    truth (strcmp first second) = true ↔ first ≠ second := by
  rw [truth, bne_iff_ne, ne_eq, strcmp_eq_zero_iff]

/-! ## The dispatch -/

/-- What `mod` selects: AM for `"am"`, and FM for every other string. -/
def selected (mod : CString) : Modulation := if mod = am then .modulationam else .modulationfm

/-- What `modulationselect` announces for an answer that does not exit. -/
def announced (freqmode : CInt) : Modulation :=
  if freqmode = 2 then .modulationam else .modulationfm

/-- The program started this modulation, with the frequency there was, and nothing else. -/
def StartsOnly (program : Program) (dialog : Dialog) (modulation : Modulation) : Prop :=
  (program dialog).state.trace = dialog.trace ++ [.started modulation dialog.globals.freq]

theorem start_startsOnly_iff (environment : Environment) (dialog : Dialog)
    (modulation other : Modulation) :
    StartsOnly (start environment modulation) dialog other ↔ modulation = other := by
  have htrace : (start environment modulation dialog).state.trace =
      dialog.trace ++ [.started modulation dialog.globals.freq] := by
    unfold start
    dsimp only
    split_ifs <;> rfl
  rw [StartsOnly, htrace]
  simp

/-- `modselect` starts AM for `"fm"`, and FM for everything else. -/
theorem modselect_eq {environment : Environment} {dialog : Dialog} {mod : CString}
    (hmod : dialog.globals.mod.string? = some mod) :
    modselect environment dialog =
      start environment (if mod = fm then .modulationam else .modulationfm) dialog := by
  unfold modselect
  simp only [hmod]
  by_cases hfm : mod = fm
  · subst hfm
    have hdifferent : fm ≠ am := by decide
    rw [if_neg ((truth_strcmp_iff fm fm).not.mpr (not_not.mpr rfl)),
      if_pos ((truth_strcmp_iff fm am).mpr hdifferent), if_pos rfl]
  · rw [if_pos ((truth_strcmp_iff mod fm).mpr hfm), if_neg hfm]

/-- The branch taken is the selected one exactly for the strings that select nothing. -/
theorem branch_eq_selected_iff (mod : CString) :
    (if mod = fm then Modulation.modulationam else .modulationfm) = selected mod ↔
      mod ≠ fm ∧ mod ≠ am := by
  have hdifferent : fm ≠ am := by decide
  unfold selected
  by_cases hfm : mod = fm
  · subst hfm
    simp [hdifferent]
  · by_cases ham : mod = am
    · simp [ham, Ne.symm hdifferent]
    · simp [hfm, ham]

/-- Whatever string `mod` refers to, the modulation it selects is started. -/
def FollowsMod (environment : Environment) (dialog : Dialog) : Prop :=
  ∀ mod, dialog.globals.mod.string? = some mod →
    StartsOnly (modselect environment) dialog (selected mod)

/-- When `modulationselect` has returned, `modselect` starts what was announced. -/
def FollowsAnnouncement (environment : Environment) (dialog : Dialog) : Prop :=
  ∀ after, modulationselect environment dialog = .done after →
    StartsOnly (modselect environment) after (announced after.globals.freqmode)

theorem followsMod_iff (environment : Environment) (dialog : Dialog) :
    FollowsMod environment dialog ↔
      dialog.globals.mod.string? ≠ some fm ∧ dialog.globals.mod.string? ≠ some am := by
  cases hmod : dialog.globals.mod.string? with
  | none => simp [FollowsMod, hmod]
  | some mod =>
    have hbranch := branch_eq_selected_iff mod
    simp only [FollowsMod, hmod, Option.some.injEq, forall_eq', ne_eq]
    rw [StartsOnly, modselect_eq hmod, ← StartsOnly, start_startsOnly_iff, hbranch]

/-- The number `modulationselect` switches on. -/
def modeAnswered (dialog : Dialog) : CInt :=
  scanf (dialog.answers.head?.bind Answer.int) dialog.globals.freqmode

/-- `modulationselect` exits for 3, and else leaves `"fm"` or `"am"` in `mod`, as announced. -/
theorem modulationselect_spec (environment : Environment) (dialog : Dialog) :
    (modeAnswered dialog = 3 ∧
      ∃ after, modulationselect environment dialog = .halted .exit after) ∨
    (modeAnswered dialog ≠ 3 ∧
      ∃ after, modulationselect environment dialog = .done after ∧
        after.globals.mod.string? =
          some (if announced after.globals.freqmode = .modulationam then am else fm)) := by
  have hasked : ∃ asked, ask Answer.int (fun answer globals ↦
      { globals with freqmode := scanf answer globals.freqmode }) dialog = .done asked ∧
      asked.globals.freqmode = modeAnswered dialog := ⟨_, ask_eq _ _ dialog, rfl⟩
  obtain ⟨asked, hasked, hmode⟩ := hasked
  rw [modulationselect, Program.andThen, hasked, Outcome.done_andThen, ← hmode]
  by_cases hone : asked.globals.freqmode = 1
  · right
    rw [if_pos hone]
    have hannounced : announced asked.globals.freqmode = .modulationfm := by
      rw [hone]
      rfl
    exact ⟨by rw [hone]; decide, _, rfl, by simp [hannounced, CharPtr.string?]⟩
  · rw [if_neg hone]
    by_cases htwo : asked.globals.freqmode = 2
    · right
      rw [if_pos htwo]
      have hannounced : announced asked.globals.freqmode = .modulationam := if_pos htwo
      exact ⟨by rw [htwo]; decide, _, rfl, by simp [hannounced, CharPtr.string?]⟩
    · rw [if_neg htwo]
      have hannounced : announced asked.globals.freqmode = .modulationfm := if_neg htwo
      by_cases hthree : asked.globals.freqmode = 3
      · left
        rw [if_pos hthree]
        exact ⟨hthree, _, rfl⟩
      · right
        rw [if_neg hthree]
        exact ⟨hthree, _, rfl, by simp [hannounced, CharPtr.string?]⟩

/-- The branch taken for a string that announces a modulation is the other one. -/
theorem branch_ne_announced (modulation : Modulation) :
    (if (if modulation = .modulationam then am else fm) = fm then Modulation.modulationam
      else .modulationfm) ≠ modulation := by
  cases modulation <;> decide

theorem followsAnnouncement_iff (environment : Environment) (dialog : Dialog) :
    FollowsAnnouncement environment dialog ↔ modeAnswered dialog = 3 := by
  rcases modulationselect_spec environment dialog with hexits | hreturns
  · obtain ⟨hmode, after, hexit⟩ := hexits
    rw [iff_true_right hmode]
    simp [FollowsAnnouncement, hexit]
  · obtain ⟨hmode, after, hdone, hmod⟩ := hreturns
    have hnever : ¬ StartsOnly (modselect environment) after
        (announced after.globals.freqmode) := by
      rw [StartsOnly, modselect_eq hmod, ← StartsOnly, start_startsOnly_iff]
      exact branch_ne_announced _
    rw [iff_false_right hmode]
    exact fun hfollows ↦ hnever (hfollows after hdone)

/-- `modselect` starts the modulation that `mod` selects exactly where `mod` selects none, and never
the one that `modulationselect` has announced before it returned. -/
theorem modselect_follows_iff (environment : Environment) (dialog : Dialog) :
    (FollowsMod environment dialog ↔
      dialog.globals.mod.string? ≠ some fm ∧ dialog.globals.mod.string? ≠ some am) ∧
    (FollowsAnnouncement environment dialog ↔ modeAnswered dialog = 3) :=
  ⟨followsMod_iff environment dialog, followsAnnouncement_iff environment dialog⟩

/-- `mod` as `modulationselect` leaves it for FM. -/
def fmSelected : Dialog where
  globals := { Globals.initial with freqmode := 1, mod := .text 0x2000 fm }
  answers := [⟨some 1, some 1, none⟩]
  trace := []

/-- With FM selected the AM modulator is started, and so it is after FM has been announced. -/
theorem modselect_starts_the_other :
    ¬ FollowsMod ⟨fun _ ↦ true, 0x2000, 0x2004, 0x1000, 0x1004, 0x1008⟩ fmSelected ∧
      ¬ FollowsAnnouncement ⟨fun _ ↦ true, 0x2000, 0x2004, 0x1000, 0x1004, 0x1008⟩ fmSelected := by
  rw [followsMod_iff, followsAnnouncement_iff]
  constructor
  · exact fun hneither ↦ hneither.1 rfl
  · decide

end PiFunk.Menu
