import Mathlib.Algebra.Order.Ring.Nat
import Mathlib.Logic.Function.Iterate
import Mathlib.Tactic.SplitIfs

/-!
# Full-duplex lines

A line has a queue of words to send and a queue of words received, each for a bounded number of
words.  When it shifts, one word leaves the first queue for the partner, and the partner's answer to
it enters the second; a full receive queue stops the line.  Nobody but the line decides when it
shifts.

Whatever the order of pushes, shifts and pops is, nothing is lost, duplicated or reordered: the
words on the wire and those still queued are the words pushed, and the words popped and those still
queued are the partner's answers to the words on the wire.
-/

namespace FullDuplex

variable {σ β : Type*}

/-! ## The partner -/

/-- The answers of a partner to a sequence of words, and the state they leave it in. -/
def exchange (respond : σ → β → β × σ) : σ → List β → List β × σ
  | partner, [] => ([], partner)
  | partner, word :: words =>
    let rest := exchange respond (respond partner word).2 words
    ((respond partner word).1 :: rest.1, rest.2)

variable {respond : σ → β → β × σ}

@[simp]
theorem length_exchange (partner : σ) (words : List β) :
    (exchange respond partner words).1.length = words.length := by
  induction words generalizing partner with
  | nil => rfl
  | cons word words ih => simp [exchange, ih]

theorem exchange_append (partner : σ) (first second : List β) :
    exchange respond partner (first ++ second) =
      ((exchange respond partner first).1 ++
          (exchange respond (exchange respond partner first).2 second).1,
        (exchange respond (exchange respond partner first).2 second).2) := by
  induction first generalizing partner with
  | nil => rfl
  | cons word words ih => simp [exchange, ih]

theorem exchange_concat (partner : σ) (words : List β) (word : β) :
    exchange respond partner (words ++ [word]) =
      ((exchange respond partner words).1 ++
          [(respond (exchange respond partner words).2 word).1],
        (respond (exchange respond partner words).2 word).2) :=
  exchange_append partner words [word]

/-! ## The line -/

/-- The two queues, the words on the wire so far, and the partner. -/
structure Line (σ β : Type*) where
  tx : List β
  rx : List β
  wire : List β
  partner : σ

/-- One word leaves the line and one enters it, if there is a word and room for the answer. -/
def shift (respond : σ → β → β × σ) (capacity : ℕ) (line : Line σ β) : Line σ β :=
  match line.tx with
  | [] => line
  | word :: tx =>
    if line.rx.length < capacity then
      { tx
        rx := line.rx ++ [(respond line.partner word).1]
        wire := line.wire ++ [word]
        partner := (respond line.partner word).2 }
    else line

def push (word : β) (line : Line σ β) : Line σ β := { line with tx := line.tx ++ [word] }

/-- Nothing is lost between the words that were pushed and the words that were popped. -/
structure Conserves (respond : σ → β → β × σ) (start : σ) (pushed popped : List β)
    (line : Line σ β) : Prop where
  sent : line.wire ++ line.tx = pushed
  answered : popped ++ line.rx = (exchange respond start line.wire).1
  partner : line.partner = (exchange respond start line.wire).2

variable {capacity : ℕ} {start : σ} {pushed popped : List β} {line : Line σ β}

theorem conserves_empty (respond : σ → β → β × σ) (start : σ) :
    Conserves respond start [] [] ⟨[], [], [], start⟩ := ⟨rfl, rfl, rfl⟩

theorem Conserves.shift (hconserves : Conserves respond start pushed popped line) :
    Conserves respond start pushed popped (shift respond capacity line) := by
  unfold FullDuplex.shift
  cases htx : line.tx with
  | nil => exact hconserves
  | cons word tx =>
    dsimp only
    split_ifs
    · have hsent := hconserves.sent
      rw [htx] at hsent
      refine ⟨?_, ?_, ?_⟩
      · rw [← hsent, List.append_assoc, List.singleton_append]
      · rw [← List.append_assoc, hconserves.answered, exchange_concat, hconserves.partner]
      · rw [exchange_concat, hconserves.partner]
    · exact hconserves

theorem Conserves.shift_iterate (hconserves : Conserves respond start pushed popped line)
    (count : ℕ) :
    Conserves respond start pushed popped ((FullDuplex.shift respond capacity)^[count] line) := by
  induction count with
  | zero => exact hconserves
  | succ count ih =>
    rw [Function.iterate_succ_apply']
    exact ih.shift

theorem Conserves.push (hconserves : Conserves respond start pushed popped line) (word : β) :
    Conserves respond start (pushed ++ [word]) popped (push word line) where
  sent := by
    rw [← hconserves.sent, List.append_assoc]
    rfl
  answered := hconserves.answered
  partner := hconserves.partner

theorem Conserves.pop (hconserves : Conserves respond start pushed popped line) {word : β}
    {rx : List β} (hrx : line.rx = word :: rx) :
    Conserves respond start pushed (popped ++ [word]) { line with rx } where
  sent := hconserves.sent
  answered := by
    rw [← hconserves.answered, hrx, List.append_assoc]
    rfl
  partner := hconserves.partner

/-- Every word that was pushed is queued on one side, or has been popped on the other. -/
theorem Conserves.length (hconserves : Conserves respond start pushed popped line) :
    popped.length + line.rx.length + line.tx.length = pushed.length := by
  have hsent := congrArg List.length hconserves.sent
  have hanswered := congrArg List.length hconserves.answered
  rw [List.length_append] at hsent hanswered
  rw [length_exchange] at hanswered
  omega

/-- When as many words have been popped as pushed, the exchange is complete. -/
theorem Conserves.complete (hconserves : Conserves respond start pushed popped line)
    (hlength : popped.length = pushed.length) :
    line = ⟨[], [], pushed, (exchange respond start pushed).2⟩ ∧
      popped = (exchange respond start pushed).1 := by
  have hqueued := hconserves.length
  have htx : line.tx = [] := List.eq_nil_of_length_eq_zero (by omega)
  have hrx : line.rx = [] := List.eq_nil_of_length_eq_zero (by omega)
  have hwire : line.wire = pushed := by
    rw [← hconserves.sent, htx, List.append_nil]
  have hanswered := hconserves.answered
  have hpartner := hconserves.partner
  rw [hrx, List.append_nil, hwire] at hanswered
  rw [hwire] at hpartner
  have hparts : line = ⟨line.tx, line.rx, line.wire, line.partner⟩ := rfl
  refine ⟨?_, hanswered⟩
  rw [hparts, htx, hrx, hwire, hpartner]

/-- A shift takes from the one queue and adds to the other. -/
theorem shift_iterate_lengths (count : ℕ) :
    ((FullDuplex.shift respond capacity)^[count] line).tx.length ≤ line.tx.length ∧
      line.rx.length ≤ ((FullDuplex.shift respond capacity)^[count] line).rx.length := by
  induction count with
  | zero => exact ⟨le_rfl, le_rfl⟩
  | succ count ih =>
    rw [Function.iterate_succ_apply']
    generalize (FullDuplex.shift respond capacity)^[count] line = reached at *
    unfold FullDuplex.shift
    cases htx : reached.tx with
    | nil =>
      rw [htx] at ih
      simpa [htx] using ih
    | cons word tx =>
      rw [htx, List.length_cons] at ih
      dsimp only
      split_ifs
      · rw [List.length_append]
        exact ⟨by dsimp only; omega, by omega⟩
      · rw [htx, List.length_cons]
        exact ih

/-- A line does not shift without a word to send, and otherwise a shift is received. -/
theorem shift_iterate_rx_eq_nil {count : ℕ} (hcapacity : 0 < capacity)
    (hempty : ((FullDuplex.shift respond capacity)^[count] line).rx = []) :
    (FullDuplex.shift respond capacity)^[count] line = line ∧ (count = 0 ∨ line.tx = []) := by
  induction count with
  | zero => exact ⟨rfl, .inl rfl⟩
  | succ count ih =>
    rw [Function.iterate_succ_apply'] at hempty ⊢
    generalize hreached : (FullDuplex.shift respond capacity)^[count] line = reached at *
    cases htx : reached.tx with
    | nil =>
      have hstays : FullDuplex.shift respond capacity reached = reached := by
        unfold FullDuplex.shift
        rw [htx]
      rw [hstays] at hempty ⊢
      obtain ⟨hsame, -⟩ := ih hempty
      exact ⟨hsame, .inr (hsame ▸ htx)⟩
    | cons word tx =>
      unfold FullDuplex.shift at hempty
      rw [htx] at hempty
      dsimp only at hempty
      split_ifs at hempty with hroom
      · simp at hempty
      · rw [hempty] at hroom
        exact absurd hcapacity hroom

end FullDuplex
