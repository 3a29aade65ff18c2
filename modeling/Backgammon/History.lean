/-!
# History — sequences whose next term is computed from all earlier ones

* `history next n` — the first `n` terms, the latest first, each computed by `next` from those before
  it.  Every term is computed once.
* `getElem?_history` — looking back `i` terms in the history of length `n` finds term `n - 1 - i`.
* `getElem?_reverse_history` — turned round, it holds term `i` at index `i`.
-/

namespace Backgammon

variable {β : Type}

/-- **The first `n` terms** of the sequence with `next` as its rule, the latest first. -/
def history (next : List β → β) : Nat → List β
  | 0 => []
  | n + 1 =>
    let earlier := history next n
    next earlier :: earlier

/-- Term `n` of the sequence, counted from zero. -/
def term (next : List β → β) (n : Nat) : β := next (history next n)

@[simp] theorem length_history (next : List β → β) (n : Nat) : (history next n).length = n := by
  induction n with
  | zero => rfl
  | succ n ih => simp [history, ih]

theorem history_succ (next : List β → β) (n : Nat) :
    history next (n + 1) = term next n :: history next n := rfl

/-- **Looking back** in a history. -/
theorem getElem?_history (next : List β → β) {n i : Nat} (h : i < n) :
    (history next n)[i]? = some (term next (n - 1 - i)) := by
  induction n generalizing i with
  | zero => omega
  | succ n ih =>
    rw [history_succ]
    cases i with
    | zero => simp
    | succ i =>
      rw [List.getElem?_cons_succ, ih (by omega)]
      congr 2
      omega

/-- **Term by term**: a history turned round. -/
theorem getElem?_reverse_history (next : List β → β) {n i : Nat} (h : i < n) :
    (history next n).reverse[i]? = some (term next i) := by
  have last : n - 1 - i < n := by omega
  have same : n - 1 - (n - 1 - i) = i := by omega
  rw [List.getElem?_reverse (by simpa using h), length_history, getElem?_history next last, same]

end Backgammon
