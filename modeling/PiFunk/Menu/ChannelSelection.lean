import PiFunk.Menu.Channels

/-!
# The frequency that a channel selection leaves

`channelselect` asks for a band, for PMR also for a type, and then for a channel number.  The chosen
table decides the frequency, with a default for numbers it does not list.  There is a default for
the type too: it is announced and stored, but no table is entered for it, and the frequency stays
what it was.

A frequency is stored as a `float`.  That of the lowest CB channel, number 61, is the limit of the
band, and is rounded down.
-/

namespace PiFunk.Menu

open FuelLoop

/-! ## Tables within a band -/

inductive Band where
  | pmr
  | cb
deriving DecidableEq, Repr

/-- The lower limit in MHz. -/
def Band.low : Band → ℚ
  | .pmr => 446.0
  | .cb => 26.765

/-- The upper limit in MHz. -/
def Band.high : Band → ℚ
  | .pmr => 446.2
  | .cb => 27.755

def Band.Contains (band : Band) (freq : ℚ) : Prop := band.low ≤ freq ∧ freq ≤ band.high

instance (band : Band) (freq : ℚ) : Decidable (band.Contains freq) :=
  inferInstanceAs (Decidable (_ ∧ _))

/-- The constant of a number, or the default where the table does not list the number. -/
def ChannelTable.Lists (table : ChannelTable) (number : CInt) (constant : ℚ) : Prop :=
  (number, constant) ∈ table.channels ∨
    number ∉ table.channels.map Prod.fst ∧ constant = table.default

/-- The channel of a number, as it is stored. -/
def ChannelTable.Selects (table : ChannelTable) (number : CInt) (freq : ℚ) : Prop :=
  ∃ constant, table.Lists number constant ∧ freq = toFloat constant

/-- Every channel but the given ones lies in the band, and so does the default. -/
structure ChannelTable.Within (table : ChannelTable) (band : Band) (outside : List CInt) :
    Prop where
  channels : ∀ channel ∈ table.channels,
    band.Contains (toFloat channel.2) ↔ channel.1 ∉ outside
  default : band.Contains (toFloat table.default)
  listed : outside ⊆ table.channels.map Prod.fst

theorem pmrAnalog_within : pmrAnalog.Within .pmr [] where
  channels := by decide +kernel
  default := by decide +kernel
  listed := List.nil_subset _

theorem pmrDigital_within : pmrDigital.Within .pmr [] where
  channels := by decide +kernel
  default := by decide +kernel
  listed := List.nil_subset _

/-- Channel 61 is stored as 26.764999… -/
theorem cb_within : cb.Within .cb [61] where
  channels := by decide +kernel
  default := by decide +kernel
  listed := by decide +kernel

/-- What a table selects lies in its band, unless the number is that of a channel outside. -/
theorem ChannelTable.Within.contains_iff {table : ChannelTable} {band : Band}
    {outside : List CInt} (hwithin : table.Within band outside) {number : CInt} {freq : ℚ}
    (hselects : table.Selects number freq) : band.Contains freq ↔ number ∉ outside := by
  obtain ⟨constant, hlists, rfl⟩ := hselects
  cases hlists with
  | inl hlisted => exact hwithin.channels (number, constant) hlisted
  | inr hdefault =>
    rw [hdefault.2]
    exact iff_of_true hwithin.default fun hmem ↦ hdefault.1 (hwithin.listed hmem)

/-- Every number but one has a frequency. -/
theorem ChannelTable.exists_freq? (table : ChannelTable) {number : CInt}
    (hnumber : number ≠ table.exit) : ∃ freq, table.freq? number = some freq :=
  ⟨_, if_neg hnumber⟩

/-- What the `switch` assigns is what the table selects. -/
theorem ChannelTable.selects_of_freq? {table : ChannelTable} {number : CInt} {freq : ℚ}
    (hfreq : table.freq? number = some freq) : table.Selects number freq := by
  rw [ChannelTable.freq?, Option.ite_none_left_eq_some] at hfreq
  refine ⟨_, ?_, (Option.some.inj hfreq.2).symm⟩
  cases hlookup : table.channels.lookup number with
  | none =>
    refine .inr ⟨fun hlisted ↦ ?_, rfl⟩
    obtain ⟨channel, hchannel, hfirst⟩ := List.mem_map.mp hlisted
    have hdiffers := List.lookup_eq_none_iff.mp hlookup channel hchannel
    rw [hfirst, bne_self_eq_false] at hdiffers
    cases hdiffers
  | some listed =>
    rw [List.lookup_eq_some_iff] at hlookup
    obtain ⟨before, after, hchannels, -⟩ := hlookup
    exact .inl (hchannels ▸ List.mem_append_right _ List.mem_cons_self)

/-! ## The choice of the user -/

/-- The answer to a question, counted from the first; without an integer the variable keeps what it
holds. -/
def Dialog.answer (dialog : Dialog) (question : ℕ) (before : CInt) : CInt :=
  scanf (dialog.answers[question]?.bind Answer.int) before

/-- The chosen band; PMR is the default. -/
def Dialog.band (dialog : Dialog) : Band :=
  if dialog.answer 0 dialog.globals.channelmode = 2 then .cb else .pmr

/-- The chosen table.  PMR has none for a type other than 1 and 2. -/
def Dialog.table? (dialog : Dialog) : Option ChannelTable :=
  match dialog.band with
  | .pmr =>
    if dialog.answer 1 dialog.globals.type = 1 then some pmrAnalog
    else if dialog.answer 1 dialog.globals.type = 2 then some pmrDigital
    else none
  | .cb => some cb

/-- The chosen channel number. -/
def Dialog.channelNumber (dialog : Dialog) : CInt :=
  match dialog.band with
  | .pmr => dialog.answer 2 dialog.globals.channelnumberpmr
  | .cb => dialog.answer 1 dialog.globals.channelnumbercb

/-- The number is the one that exits. -/
def Dialog.ChoosesExit (dialog : Dialog) : Prop :=
  ∃ table, dialog.table? = some table ∧ dialog.channelNumber = table.exit

/-- A frequency of the chosen band, selected by the chosen table.  Without a table it is the default
channel of type 1, which is announced as the standard. -/
structure Dialog.Tunes (dialog : Dialog) (freq : ℚ) : Prop where
  band : dialog.band.Contains freq
  channel : ∀ table, dialog.table? = some table → table.Selects dialog.channelNumber freq
  standard : dialog.table? = none → freq = toFloat pmrAnalog.default

/-- Unless the user exits, `channelselect` returns and has tuned to the choice. -/
def SelectsChannel (dialog : Dialog) : Prop :=
  ¬ dialog.ChoosesExit →
    ∃ final, channelselect dialog = .done final ∧ dialog.Tunes final.globals.freq

/-- The channels outside a band. -/
def Band.outside : Band → List CInt
  | .pmr => []
  | .cb => [61]

theorem Dialog.table_within {dialog : Dialog} {table : ChannelTable}
    (htable : dialog.table? = some table) : table.Within dialog.band dialog.band.outside := by
  unfold Dialog.table? at htable
  cases hband : dialog.band with
  | pmr =>
    rw [hband] at htable
    split_ifs at htable
    · exact Option.some.inj htable ▸ pmrAnalog_within
    · exact Option.some.inj htable ▸ pmrDigital_within
  | cb =>
    rw [hband] at htable
    exact Option.some.inj htable ▸ cb_within

theorem Dialog.band_of_no_table {dialog : Dialog} (htable : dialog.table? = none) :
    dialog.band = .pmr := by
  unfold Dialog.table? at htable
  cases hband : dialog.band with
  | pmr => rfl
  | cb =>
    rw [hband] at htable
    cases htable

/-! ## The frequency behind each menu -/

/-- The frequency that a program leaves when it returns. -/
def leftFreq? : Outcome Stop Dialog → Option ℚ
  | .done final => some final.globals.freq
  | .halted _ _ => none
  | .running _ => none

theorem leftFreq?_eq_some_iff (outcome : Outcome Stop Dialog) (freq : ℚ) :
    leftFreq? outcome = some freq ↔ ∃ final, outcome = .done final ∧ final.globals.freq = freq := by
  cases outcome <;> simp [leftFreq?]

/-- The next question is answered by the answer behind it. -/
theorem answer_tail (dialog : Dialog) (globals : Globals) (question : ℕ) (before : CInt) :
    { dialog with globals, answers := dialog.answers.tail : Dialog }.answer question before =
      dialog.answer (question + 1) before := by
  rw [Dialog.answer, List.getElem?_tail]
  rfl

/-- A channel menu leaves the frequency of the number that is answered. -/
theorem leftFreq?_ask_switch (store : Option CInt → Globals → Globals) (table : ChannelTable)
    (number : Globals → CInt) (dialog : Dialog) :
    leftFreq? ((ask Answer.int store).andThen (table.switch number) dialog) =
      table.freq? (number (store (dialog.answers[0]?.bind Answer.int) dialog.globals)) := by
  rw [Program.andThen, ask_eq, Outcome.done_andThen, List.head?_eq_getElem?, ChannelTable.switch]
  cases table.freq? _ <;> rfl

theorem leftFreq?_channelmodepmranalog (dialog : Dialog) :
    leftFreq? (channelmodepmranalog dialog) =
      pmrAnalog.freq? (dialog.answer 0 dialog.globals.channelnumberpmr) :=
  leftFreq?_ask_switch _ _ _ dialog

theorem leftFreq?_channelmodepmrdigital (dialog : Dialog) :
    leftFreq? (channelmodepmrdigital dialog) =
      pmrDigital.freq? (dialog.answer 0 dialog.globals.channelnumberpmr) :=
  leftFreq?_ask_switch _ _ _ dialog

theorem leftFreq?_channelmodecb (dialog : Dialog) :
    leftFreq? (channelmodecb dialog) =
      cb.freq? (dialog.answer 0 dialog.globals.channelnumbercb) :=
  leftFreq?_ask_switch _ _ _ dialog

/-- An unknown type leaves the frequency in place. -/
theorem leftFreq?_channelmodepmr (dialog : Dialog) :
    leftFreq? (channelmodepmr dialog) =
      if dialog.answer 0 dialog.globals.type = 1 then
        pmrAnalog.freq? (dialog.answer 1 dialog.globals.channelnumberpmr)
      else if dialog.answer 0 dialog.globals.type = 2 then
        pmrDigital.freq? (dialog.answer 1 dialog.globals.channelnumberpmr)
      else some dialog.globals.freq := by
  rw [channelmodepmr, Program.andThen, ask_eq, Outcome.done_andThen, List.head?_eq_getElem?,
    apply_ite leftFreq?, apply_ite leftFreq?, leftFreq?_channelmodepmranalog,
    leftFreq?_channelmodepmrdigital, answer_tail]
  rfl

/-- `channelselect` leaves the frequency of the chosen table, and without a table the old one. -/
theorem leftFreq?_channelselect (dialog : Dialog) :
    leftFreq? (channelselect dialog) =
      match dialog.table? with
      | some table => table.freq? dialog.channelNumber
      | none => some dialog.globals.freq := by
  rw [channelselect, Program.andThen, ask_eq, Outcome.done_andThen, List.head?_eq_getElem?,
    apply_ite leftFreq?, apply_ite leftFreq?, leftFreq?_channelmodepmr, leftFreq?_channelmodecb]
  simp only [answer_tail, zero_add, Nat.reduceAdd]
  by_cases hcb : dialog.answer 0 dialog.globals.channelmode = 2
  · have hband : dialog.band = .cb := if_pos hcb
    have htable : dialog.table? = some cb := by
      rw [Dialog.table?, hband]
    have hnumber : dialog.channelNumber = dialog.answer 1 dialog.globals.channelnumbercb := by
      rw [Dialog.channelNumber, hband]
    have hmode : scanf (dialog.answers[0]?.bind Answer.int) dialog.globals.channelmode = 2 := hcb
    rw [htable, hnumber, hmode]
    rfl
  · have hband : dialog.band = .pmr := if_neg hcb
    have hnumber : dialog.channelNumber = dialog.answer 2 dialog.globals.channelnumberpmr := by
      rw [Dialog.channelNumber, hband]
    have hmode : ¬ scanf (dialog.answers[0]?.bind Answer.int) dialog.globals.channelmode = 2 := hcb
    rw [if_neg hmode, ite_self, Dialog.table?, hband, hnumber]
    split_ifs <;> rfl

/-! ## The selection -/

/-- A chosen table is followed, and the channel lies in the band unless it is one of those
outside. -/
theorem selectsChannel_of_table_iff {dialog : Dialog} {table : ChannelTable}
    (htable : dialog.table? = some table) (hstays : ¬ dialog.ChoosesExit) :
    SelectsChannel dialog ↔ dialog.channelNumber ∉ dialog.band.outside := by
  have hnumber : dialog.channelNumber ≠ table.exit := fun hexit ↦ hstays ⟨table, htable, hexit⟩
  obtain ⟨freq, hfreq⟩ := table.exists_freq? hnumber
  have hleft := leftFreq?_channelselect dialog
  rw [htable] at hleft
  obtain ⟨final, hfinal, hvalue⟩ := (leftFreq?_eq_some_iff _ freq).mp (hleft.trans hfreq)
  have hselects : table.Selects dialog.channelNumber final.globals.freq :=
    hvalue ▸ ChannelTable.selects_of_freq? hfreq
  rw [← (dialog.table_within htable).contains_iff hselects]
  constructor
  · intro hfollows
    obtain ⟨other, hother, htunes⟩ := hfollows hstays
    obtain rfl : final = other := Outcome.done.inj (hfinal.symm.trans hother)
    exact htunes.band
  · intro hband _
    exact ⟨final, hfinal, hband,
      fun other hother ↦ Option.some.inj (htable.symm.trans hother) ▸ hselects,
      fun hnone ↦ nomatch htable.symm.trans hnone⟩

/-- No channel outside a band is the one that exits. -/
theorem Dialog.not_choosesExit_of_mem_outside {dialog : Dialog}
    (houtside : dialog.channelNumber ∈ dialog.band.outside) : ¬ dialog.ChoosesExit := by
  rintro ⟨table, htable, hexit⟩
  rw [Dialog.table?] at htable
  cases hband : dialog.band with
  | pmr =>
    rw [hband] at houtside
    cases houtside
  | cb =>
    rw [hband] at houtside htable
    rw [← Option.some.inj htable] at hexit
    rw [hexit] at houtside
    exact absurd houtside (by decide)

/-- Without a table the old frequency is kept, so it has to be the standard one. -/
theorem selectsChannel_of_no_table_iff {dialog : Dialog} (htable : dialog.table? = none) :
    SelectsChannel dialog ↔ dialog.globals.freq = toFloat pmrAnalog.default := by
  have hleft := leftFreq?_channelselect dialog
  rw [htable] at hleft
  obtain ⟨final, hfinal, hvalue⟩ := (leftFreq?_eq_some_iff _ _).mp hleft
  constructor
  · intro hselects
    obtain ⟨other, hother, htunes⟩ := hselects fun ⟨table, hsome, _⟩ ↦
      nomatch htable.symm.trans hsome
    obtain rfl : final = other := Outcome.done.inj (hfinal.symm.trans hother)
    exact hvalue.symm.trans (htunes.standard htable)
  · intro hstandard _
    have hfreq : final.globals.freq = toFloat pmrAnalog.default := hvalue.trans hstandard
    have hband : dialog.band.Contains final.globals.freq := by
      rw [hfreq, dialog.band_of_no_table htable]
      exact pmrAnalog_within.default
    exact ⟨final, hfinal, hband, fun _ hsome ↦ absurd (htable.symm.trans hsome) (nomatch ·),
      fun _ ↦ hfreq⟩

/-- The selection follows the choice exactly when a table is chosen, or when the old frequency
happens to be the standard one, and the choice is not CB channel 61. -/
theorem selectsChannel_iff (dialog : Dialog) :
    SelectsChannel dialog ↔
      (dialog.table? = none → dialog.globals.freq = toFloat pmrAnalog.default) ∧
        ¬ (dialog.band = .cb ∧ dialog.channelNumber = 61) := by
  have houtside : dialog.channelNumber ∈ dialog.band.outside ↔
      dialog.band = .cb ∧ dialog.channelNumber = 61 := by
    cases dialog.band <;> simp [Band.outside]
  rw [← houtside]
  cases htable : dialog.table? with
  | some table =>
    by_cases hexit : dialog.ChoosesExit
    · exact iff_of_true (fun hstays ↦ absurd hexit hstays)
        ⟨nofun, fun hmem ↦ dialog.not_choosesExit_of_mem_outside hmem hexit⟩
    · rw [selectsChannel_of_table_iff htable hexit]
      exact ⟨fun hinside ↦ ⟨nofun, hinside⟩, fun hboth ↦ hboth.2⟩
  | none =>
    have hinside : dialog.channelNumber ∉ dialog.band.outside := by
      rw [dialog.band_of_no_table htable]
      exact List.not_mem_nil
    rw [selectsChannel_of_no_table_iff htable]
    exact ⟨fun hfreq ↦ ⟨fun _ ↦ hfreq, hinside⟩, fun hboth ↦ hboth.1 rfl⟩

/-- PMR is chosen with the unknown type 3 while `freq` is 100 MHz, which is then kept. -/
theorem selectsChannel_fails_without_type :
    ¬ SelectsChannel
      { globals := { Globals.initial with freq := 100 }
        answers := [⟨some 1, some 1, none⟩, ⟨some 3, some 3, none⟩]
        trace := [] } := by
  intro hselects
  obtain ⟨final, hfinal, htunes⟩ := hselects fun ⟨_, htable, _⟩ ↦ nomatch htable
  have hfreq : final.globals.freq = 100 := by
    rw [← Outcome.done.inj hfinal]
  exact absurd (hfreq.symm.trans (htunes.standard rfl)) (by decide +kernel)

end PiFunk.Menu
