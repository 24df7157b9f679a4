import Mathlib.Data.Nat.Notation
import Mathlib.Tactic.TypeStar

/-!
# Partners that acknowledge

A partner takes words one by one, or delivers them, and it may break off at any word for a reason.
`listen` and `fetch` say what becomes of a whole sequence of words.
-/

namespace Acknowledge

variable {ε σ β : Type*}

/-- The partner is offered the words up to the first one it refuses. -/
def listen (accept : σ → β → Except ε σ) : σ → List β → Option ε × σ
  | partner, [] => (none, partner)
  | partner, word :: words =>
    match accept partner word with
    | .ok next => listen accept next words
    | .error reason => (some reason, partner)

/-- The partner is asked for a number of words, up to the first one it does not deliver. -/
def fetch (deliver : σ → Except ε (β × σ)) : σ → ℕ → List β × Option ε × σ
  | partner, 0 => ([], none, partner)
  | partner, count + 1 =>
    match deliver partner with
    | .ok (word, next) =>
      let rest := fetch deliver next count
      (word :: rest.1, rest.2)
    | .error reason => ([], some reason, partner)

variable {accept : σ → β → Except ε σ} {deliver : σ → Except ε (β × σ)} {partner next : σ}

theorem listen_cons_ok {word : β} (haccept : accept partner word = .ok next) (words : List β) :
    listen accept partner (word :: words) = listen accept next words := by
  rw [listen, haccept]

theorem listen_cons_error {word : β} {reason : ε} (haccept : accept partner word = .error reason)
    (words : List β) : listen accept partner (word :: words) = (some reason, partner) := by
  rw [listen, haccept]

theorem fetch_succ_ok {word : β} (hdeliver : deliver partner = .ok (word, next)) (count : ℕ) :
    fetch deliver partner (count + 1) =
      (word :: (fetch deliver next count).1, (fetch deliver next count).2) := by
  rw [fetch, hdeliver]

theorem fetch_succ_error {reason : ε} (hdeliver : deliver partner = .error reason) (count : ℕ) :
    fetch deliver partner (count + 1) = ([], some reason, partner) := by
  rw [fetch, hdeliver]

end Acknowledge
