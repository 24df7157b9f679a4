import Mathlib.Data.List.GetD
import Mathlib.Order.Lattice
import PiFunk.CTypes
import PiFunk.Library.Loop

/-!
# Morse messages

`cw` reads a word into the buffer `message` and walks through it with the global index `w`, beeping
once for a dot and twice for a dash.  The index is initialised where it is declared and nowhere
else, so a call starts where the longest message so far has ended.

The buffer is taken as large enough.  The character that `cw` returns is the first one of the
buffer, and lines that are only printed once are left out.
-/

namespace PiFunk.Morse

open FuelLoop

/-! ## The scan of a message -/

/-- `short_cw`, the text `"."`. -/
def shortCw : CString := ⟨[0x2E], by decide⟩

/-- `long_cw`, the text `"-"`. -/
def longCw : CString := ⟨[0x2D], by decide⟩

/-- The characters at which `%s` stops. -/
def whitespace : List Byte := [0x20, 0x09, 0x0A, 0x0B, 0x0C, 0x0D]

/-- A word that `scanf ("%s", …)` delivers. -/
structure Message extends CString where
  nonempty : chars ≠ []
  no_space : ∀ character ∈ chars, character ∉ whitespace

/-- What is heard of one character. -/
inductive Signal where
  /-- `"\a"`. -/
  | beep
  /-- `"\a\a"`. -/
  | doubleBeep
  /-- `"\nError: NOT CW-Code! \n"`. -/
  | error
deriving DecidableEq, Repr

/-- The index `w`, the buffer `message`, and the signals so far. -/
structure State where
  w : ℕ
  message : ℕ → Byte
  trace : List Signal

/-- The tone of a character. -/
def translate (character : Byte) : Signal :=
  if character = shortCw.get 0 then .beep
  else if character = longCw.get 0 then .doubleBeep
  else .error

/-- `scanf ("%s", &message)` stores the characters and the terminator. -/
def store (message : CString) (buffer : ℕ → Byte) : ℕ → Byte := fun index ↦
  if index ≤ message.strlen then message.get index else buffer index

def round (state : State) : State :=
  { state with w := state.w + 1, trace := state.trace ++ [translate (state.message state.w)] }

def cw (message : Message) : Program Empty State := fun fuel state ↦
  whileLoop (fun s ↦ s.message s.w != 0) (fun s ↦ .done (round s)) fuel
    { state with message := store message.toCString state.message }

/-! ## The signals of a sequence of calls -/

/-- The state of the program before its first call, with any content of the buffer. -/
def initial (buffer : ℕ → Byte) : State := ⟨0, buffer, []⟩

/-- A call returns at the end of its message, after one signal for every character. -/
structure EmitsOwn (message : Message) (before after : State) : Prop where
  returns : Returns (cw message) before after
  signals : after.trace = before.trace ++ message.chars.map translate
  stops : after.w = message.strlen

/-- Every call of the sequence does. -/
def AllEmitOwn : List Message → State → Prop
  | [], _ => True
  | message :: rest, before => ∃ after, EmitsOwn message before after ∧ AllEmitOwn rest after

/-- The calls return one after another. -/
def Ran : List Message → State → State → Prop
  | [], before, after => after = before
  | message :: rest, before, after =>
    ∃ middle, Returns (cw message) before middle ∧ Ran rest middle after

/-- What a call does from a state with the index `w`: it scans what lies behind the index. -/
def scanned (message : Message) (before : State) : State where
  w := max before.w message.strlen
  message := store message.toCString before.message
  trace := before.trace ++ (message.chars.drop before.w).map translate

/-- The index is at the start, or at the terminator behind an earlier message. -/
def AtRest (state : State) : Prop := state.w = 0 ∨ state.message state.w = 0

/-! ## The buffer -/

section Store

variable (message : CString) (buffer : ℕ → Byte)

theorem store_of_le {index : ℕ} (hindex : index ≤ message.strlen) :
    store message buffer index = message.get index := if_pos hindex

theorem store_of_gt {index : ℕ} (hindex : message.strlen < index) :
    store message buffer index = buffer index := if_neg (not_le.mpr hindex)

theorem store_strlen : store message buffer message.strlen = 0 := by
  rw [store_of_le message buffer le_rfl, CString.get, CString.strlen,
    List.getD_eq_default _ _ le_rfl]

/-- No character of the message is the terminator. -/
theorem store_ne_zero {index : ℕ} (hindex : index < message.strlen) :
    store message buffer index ≠ 0 := by
  have hget : message.get index = message.chars[index] := List.getD_eq_getElem _ _ hindex
  rw [store_of_le message buffer hindex.le, hget]
  intro hzero
  exact message.no_nul (hzero ▸ List.getElem_mem hindex)

/-- The characters behind an index. -/
theorem map_store_range (start : ℕ) :
    (List.range (message.strlen - start)).map (fun k ↦ store message buffer (start + k)) =
      message.chars.drop start := by
  apply List.ext_getElem
  · simp [CString.strlen]
  · intro k hleft hright
    have hlength : start + k < message.strlen := by
      simp at hleft
      omega
    rw [List.getElem_map, List.getElem_range, store_of_le message buffer hlength.le,
      List.getElem_drop]
    exact List.getD_eq_getElem _ _ hlength

end Store

/-! ## One call -/

/-- The state after some rounds. -/
theorem round_iterate (state : State) (count : ℕ) :
    round^[count] state =
      { state with
        w := state.w + count
        trace := state.trace ++
          (List.range count).map fun k ↦ translate (state.message (state.w + k)) } := by
  induction count with
  | zero => simp
  | succ count ih =>
    rw [Function.iterate_succ_apply', ih, round, List.range_succ, List.map_append,
      ← List.append_assoc]
    rfl

theorem Message.strlen_ne_zero (message : Message) : message.strlen ≠ 0 :=
  (List.length_pos_iff.mpr message.nonempty).ne'

/-- A call scans what lies behind the index. -/
theorem round_iterate_scanned (message : Message) (before : State) :
    round^[message.strlen - before.w]
        { before with message := store message.toCString before.message } =
      scanned message before := by
  have hindex : before.w + (message.strlen - before.w) = max before.w message.strlen := by omega
  have hsignals : (List.range (message.strlen - before.w)).map
        (fun k ↦ translate (store message.toCString before.message (before.w + k))) =
      (message.chars.drop before.w).map translate := by
    rw [← map_store_range message.toCString before.message, List.map_map]
    rfl
  rw [round_iterate, hindex, hsignals]
  rfl

theorem scanned_message (message : Message) {before : State} (hrest : AtRest before) :
    (scanned message before).message (scanned message before).w = 0 := by
  change store message.toCString before.message (max before.w message.strlen) = 0
  rcases le_or_gt before.w message.strlen with hshort | hlong
  · rw [max_eq_right hshort, store_strlen]
  · rw [max_eq_left hlong.le, store_of_gt _ _ hlong]
    exact hrest.resolve_left (Nat.ne_zero_of_lt hlong)

/-- From a resting index a call returns exactly after it has scanned what lies behind the index. -/
theorem returns_cw_iff (message : Message) {before : State} (hrest : AtRest before)
    (after : State) : Returns (cw message) before after ↔ after = scanned message before := by
  let loaded : State := { before with message := store message.toCString before.message }
  have hrounds (k : ℕ) (hk : k < message.strlen - before.w) :
      ((round^[k] loaded).message (round^[k] loaded).w != 0) = true := by
    have hindex : before.w + k < message.strlen := by omega
    rw [round_iterate]
    exact bne_iff_ne.mpr (store_ne_zero _ _ hindex)
  have hscanned : round^[message.strlen - before.w] loaded = scanned message before :=
    round_iterate_scanned message before
  have hleave : ((round^[message.strlen - before.w] loaded).message
      (round^[message.strlen - before.w] loaded).w != 0) = false := by
    rw [hscanned, scanned_message message hrest]
    rfl
  change Returns (whileLoop (fun s ↦ s.message s.w != 0) fun s ↦ .done (round s)) loaded after ↔ _
  rw [← hscanned]
  exact returns_whileLoop_step_iff_eq hrounds hleave after

/-! ## Calls one after another -/

/-- A call emits its own message exactly when the index is at the start. -/
theorem exists_emitsOwn_iff (message : Message) {before : State} (hrest : AtRest before) :
    (∃ after, EmitsOwn message before after) ↔ before.w = 0 := by
  constructor
  · intro hemits
    obtain ⟨after, hafter⟩ := hemits
    have hsignals := hafter.signals
    rw [(returns_cw_iff message hrest after).mp hafter.returns] at hsignals
    have hcount := congrArg List.length (List.append_cancel_left hsignals)
    rw [List.length_map, List.length_drop, List.length_map] at hcount
    have hlength : message.chars.length ≠ 0 := message.strlen_ne_zero
    omega
  · intro hstart
    refine ⟨_, (returns_cw_iff message hrest _).mpr rfl, ?_, ?_⟩
    · rw [scanned, hstart, List.drop_zero]
    · rw [scanned, hstart]
      exact Nat.zero_max _

/-- The step lemma: a call leaves the index at rest, and behind the start. -/
theorem rest_of_returns {message : Message} {before after : State} (hrest : AtRest before)
    (hreturns : Returns (cw message) before after) : AtRest after ∧ after.w ≠ 0 := by
  have hafter := (returns_cw_iff message hrest after).mp hreturns
  have hstrlen : message.strlen ≠ 0 := message.strlen_ne_zero
  have hindex : after.w = max before.w message.strlen := by rw [hafter, scanned]
  constructor
  · exact .inr (hafter ▸ scanned_message message hrest)
  · omega

/-- The run lemma: so does every sequence of calls. -/
theorem Ran.rest {messages : List Message} {before after : State} (hrest : AtRest before)
    (hran : Ran messages before after) :
    AtRest after ∧ (messages ≠ [] ∨ before.w ≠ 0 → after.w ≠ 0) := by
  induction messages generalizing before with
  | nil =>
    have hsame : after = before := hran
    rw [hsame]
    exact ⟨hrest, fun hbehind ↦ hbehind.resolve_left fun hnonempty ↦ hnonempty rfl⟩
  | cons message rest ih =>
    obtain ⟨middle, hreturns, hlater⟩ := hran
    obtain ⟨hmiddle, hbehind⟩ := rest_of_returns hrest hreturns
    exact ⟨(ih hmiddle hlater).1, fun _ ↦ (ih hmiddle hlater).2 (.inr hbehind)⟩

/-- After a history of calls, the next one emits its own message exactly when it is the first. -/
theorem exists_emitsOwn_after_iff (history : List Message) (message : Message)
    {buffer : ℕ → Byte} {before : State} (hran : Ran history (initial buffer) before) :
    (∃ after, EmitsOwn message before after) ↔ history = [] := by
  obtain ⟨hrest, hbehind⟩ := hran.rest (.inl rfl)
  rw [exists_emitsOwn_iff message hrest]
  constructor
  · intro hstart
    by_contra hcalled
    exact hbehind (.inl hcalled) hstart
  · intro hnone
    have hsame : before = initial buffer := by
      rw [hnone] at hran
      exact hran
    rw [hsame]
    rfl

/-- Every call of a sequence emits its own message exactly when there is at most one. -/
theorem allEmitOwn_iff (messages : List Message) (buffer : ℕ → Byte) :
    AllEmitOwn messages (initial buffer) ↔ messages.length ≤ 1 := by
  match messages with
  | [] => simp [AllEmitOwn]
  | [message] =>
    have hnone : Ran [] (initial buffer) (initial buffer) := rfl
    simpa [AllEmitOwn] using (exists_emitsOwn_after_iff [] message hnone).mpr rfl
  | first :: second :: rest =>
    refine iff_of_false ?_ (by simp)
    intro hall
    obtain ⟨middle, hfirst, after, hsecond, _⟩ := hall
    have hran : Ran [first] (initial buffer) middle := ⟨middle, hfirst.returns, rfl⟩
    exact absurd ((exists_emitsOwn_after_iff [first] second hran).mp ⟨after, hsecond⟩) (by simp)

/-- The message `"."` and then the message `"-"`, which is not heard. -/
theorem allEmitOwn_fails_on_two_calls :
    ¬ AllEmitOwn [⟨shortCw, by decide, by decide⟩, ⟨longCw, by decide, by decide⟩]
      (initial fun _ ↦ 0) := by
  intro hall
  obtain ⟨middle, hfirst, after, hsecond, _⟩ := hall
  have hran : Ran [_] (initial fun _ ↦ 0) middle := ⟨middle, hfirst.returns, rfl⟩
  exact absurd ((exists_emitsOwn_after_iff [_] _ hran).mp ⟨after, hsecond⟩) (by simp)

end PiFunk.Morse
