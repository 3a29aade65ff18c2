import Backgammon.Proofs.Rollout.Turns
import Backgammon.Proofs.ScalarOrder

/-!
# Proofs/Rollout/MoveChoice — the play of a roll among several

    listed ──looked at without search──▸ ranked ──admitted──▸ looked at again ──▸ the first of the greatest
                                            │
                                            └── no filter ──▸ the first

All moves are looked at without search and ranked; a filter admits some of them to be looked at again.
It is asked about one rank after the other and stops at the first that it turns down, which loses
nothing: a lower rank is no nearer to the best.

* `Ranking`, `ranking_ranked` — greater equities come first, and moves of one rank as they are listed.
* `admitted`, `survivors_eq_admitted` — the ranks that a filter admits, asked one by one or all at once.
* `FirstGreatest`, `firstGreatest_foldl` — what is left of the moves that are looked at again.
* `Arena.Rates`, `Arena.lookAt` — moves that have equities, and a look at them one after the other.
* `Arena.Chosen`, `chooseMove_chosen` — the choice, step by step.
-/

namespace Backgammon.Rollout

variable {σ δ α Board Move : Type} [Scalar α]

/-! ## Ranks -/

namespace RankedMove

/-- The move, with its place in the list. -/
def entry (x : RankedMove α Move) : Move × Nat := (x.move, x.index)

/-- **A move is ranked before another**: its equity is greater or, if neither is, it is listed first. -/
def Before (x y : RankedMove α Move) : Prop :=
  Scalar.rankLE y.equity x.equity = true ∧
    (Scalar.rankLE x.equity y.equity = true → x.index < y.index)

instance (x y : RankedMove α Move) : Decidable (Before x y) :=
  inferInstanceAs (Decidable (_ ∧ (_ → _)))

end RankedMove

open RankedMove

/-- **A ranking of moves**: all of them, one before the other, with equities that descend. -/
structure Ranking (moves order : List (RankedMove α Move)) : Prop where
  perm : order.Perm moves
  before : order.Pairwise Before
  descending : order.Pairwise fun x y => y.equity ≤ x.equity

section

variable {moves : List (RankedMove α Move)} {listed : List Move}

theorem perm_ranked (moves : List (RankedMove α Move)) : (ranked moves).Perm moves :=
  List.mergeSort_perm ..

omit [Scalar α] in
theorem map_index (numbered : moves.map entry = listed.zipIdx) :
    moves.map (·.index) = List.range listed.length := by
  have indices := congrArg (List.map Prod.snd) numbered
  rwa [List.map_map, List.zipIdx_map_snd, ← List.range_eq_range'] at indices

omit [Scalar α] in
theorem index_eq_of_mem_zipIdx (numbered : moves.map entry = listed.zipIdx)
    {x : RankedMove α Move} {i : Nat} (hx : (x, i) ∈ moves.zipIdx) : x.index = i := by
  have index := congrArg (·[i]?) (map_index numbered)
  rw [List.mk_mem_zipIdx_iff_getElem?] at hx
  simp only [List.getElem?_map, hx, Option.map_some] at index
  obtain ⟨_, same⟩ := List.getElem?_eq_some_iff.1 index.symm
  rwa [List.getElem_range, eq_comm] at same

variable [Scalar.LawfulRank α]

/-- **Moves are ranked by their equities**, and by their places where these do not decide. -/
theorem pairwise_ranked (numbered : moves.map entry = listed.zipIdx) :
    (ranked moves).Pairwise Before := by
  let le (x y : RankedMove α Move) : Bool := Scalar.rankLE y.equity x.equity
  have trans : ∀ x y z, le x y = true → le y z = true → le x z = true :=
    fun x y z hxy hyz => Scalar.LawfulRank.trans hyz hxy
  have total : ∀ x y, (le x y || le y x) = true := fun x y =>
    Bool.or_eq_true_iff.2 (Scalar.LawfulRank.total _ _)
  -- a stable sort goes by the places where the relation does not decide
  have sorted := List.pairwise_mergeSort (List.zipIdxLE_trans trans) (List.zipIdxLE_total total)
    moves.zipIdx
  have perm := List.mergeSort_perm moves.zipIdx (List.zipIdxLE le)
  have apart : ((moves.zipIdx.mergeSort (List.zipIdxLE le)).map Prod.snd).Nodup :=
    (perm.map Prod.snd).nodup_iff.2 (by rw [List.zipIdx_map_snd]; exact List.nodup_range')
  change (moves.mergeSort le).Pairwise Before
  rw [← List.mergeSort_zipIdx, List.pairwise_map]
  refine (sorted.and (List.pairwise_map.1 apart)).imp_of_mem ?_
  rintro ⟨x, i⟩ ⟨y, j⟩ hx hy ⟨below, distinct⟩
  obtain rfl := index_eq_of_mem_zipIdx numbered (perm.mem_iff.1 hx)
  obtain rfl := index_eq_of_mem_zipIdx numbered (perm.mem_iff.1 hy)
  dsimp only [List.zipIdxLE] at below distinct
  split at below
  next xy =>
    refine ⟨xy, fun yx => ?_⟩
    rw [if_pos yx, decide_eq_true_iff] at below
    exact Nat.lt_of_le_of_ne below distinct
  next => exact nomatch below

/-- Moves are ranked in one way only. -/
theorem ranked_eq {order : List (RankedMove α Move)} (listed : List Move)
    (numbered : moves.map entry = listed.zipIdx)
    (perm : order.Perm moves) (before : order.Pairwise Before) : ranked moves = order := by
  refine List.Perm.eq_of_pairwise (fun x y _ _ xy yx => ?_) (pairwise_ranked numbered) before
    ((perm_ranked moves).trans perm.symm)
  exact absurd (xy.2 yx.1) (Nat.lt_asymm (yx.2 xy.1))

end

theorem ranking_ranked [Scalar.LawfulOrder α] {moves : List (RankedMove α Move)} {listed : List Move}
    (numbered : moves.map entry = listed.zipIdx)
    (numbers : ∀ x ∈ moves, Scalar.isNaN x.equity = false) : Ranking moves (ranked moves) where
  perm := perm_ranked moves
  before := pairwise_ranked numbered
  descending := (pairwise_ranked numbered).imp_of_mem fun hx hy h =>
    have number {z} (hz : z ∈ ranked moves) := numbers z ((perm_ranked moves).mem_iff.1 hz)
    Scalar.LawfulOrder.le_of_rankLE (number hy) (number hx) h.1

/-- Moves that have been looked at have a ranking, with a first one. -/
theorem exists_ranked [Scalar.LawfulOrder α] {moves : List (RankedMove α Move)} {first : Move}
    {rest : List Move} (numbered : moves.map entry = (first :: rest).zipIdx)
    (numbers : ∀ x ∈ moves, Scalar.isNaN x.equity = false) :
    ∃ best others, ranked moves = best :: others ∧ Ranking moves (best :: others) := by
  have ranking := ranking_ranked numbered numbers
  have full : ranked moves ≠ [] := by
    intro none
    have empty : moves = [] := List.perm_nil.1 (none ▸ (perm_ranked moves).symm)
    rw [empty] at numbered
    exact nomatch numbered
  obtain ⟨best, others, order⟩ := List.exists_cons_of_ne_nil full
  exact ⟨best, others, order, order ▸ ranking⟩

/-! ## What a filter admits -/

/-- **A filter admits** the best ranks, at least one, and some more that are close to the best. -/
def MoveFilter.admits (f : MoveFilter α) (best : α) (rank : Nat) (equity : α) : Bool :=
  decide (rank < max f.accept 1) ||
    (decide (rank < f.reach) && decide (best - equity ≤ f.threshold))

/-- The ranked moves that a filter admits. -/
def admitted (f : MoveFilter α) : List (RankedMove α Move) → List (RankedMove α Move)
  | [] => []
  | best :: others => ((best :: others).zipIdx.filter fun (x, rank) =>
      f.admits best.equity rank x.equity).map Prod.fst

omit [Scalar α] in
theorem pos_of_moveFilter? {settings : Settings α} {plies : Nat} {f : MoveFilter α}
    (filtered : settings.moveFilter? plies = some f) : 0 < plies := by
  rw [Settings.moveFilter?] at filtered
  split at filtered
  next => exact nomatch filtered
  next deep => exact Nat.pos_of_ne_zero deep

theorem mem_of_mem_admitted {f : MoveFilter α} {order : List (RankedMove α Move)} {x : RankedMove α Move}
    (hx : x ∈ admitted f order) : x ∈ order := by
  cases order with
  | nil => exact hx
  | cons best others =>
    obtain ⟨⟨y, rank⟩, hy, rfl⟩ := List.mem_map.1 hx
    exact List.fst_mem_of_mem_zipIdx (List.mem_filter.1 hy).1

/-- The best move is admitted by any filter. -/
theorem admitted_cons (f : MoveFilter α) (best : RankedMove α Move) (others : List (RankedMove α Move)) :
    ∃ more, admitted f (best :: others) = best :: more := by
  have first : f.admits best.equity 0 best.equity = true :=
    Bool.or_eq_true_iff.2 (.inl (decide_eq_true (by omega)))
  rw [admitted, List.zipIdx_cons, List.filter_cons, if_pos first]
  exact ⟨_, rfl⟩

theorem takeWhile_eq_filter {β : Type} {p : β → Bool} {l : List β}
    (prefixed : l.Pairwise fun x y => p y = true → p x = true) : l.takeWhile p = l.filter p := by
  induction l with
  | nil => rfl
  | cons x l ih =>
    obtain ⟨first, rest⟩ := List.pairwise_cons.1 prefixed
    rw [List.takeWhile_cons, List.filter_cons]
    split
    next => rw [ih rest]
    next refused =>
      exact (List.filter_eq_nil_iff.2 fun y hy admitted => refused (first y hy admitted)).symm

section

variable [Scalar.LawfulOrder α] {f : MoveFilter α} {order : List (RankedMove α Move)}

/-- Whoever is ranked higher than an admitted move is admitted too. -/
theorem admits_of_admits {best x y : α} {i j : Nat} (limited : ¬Scalar.largest < f.threshold)
    (hbest : Scalar.isNaN best = false) (hx : Scalar.isNaN x = false) (hy : Scalar.isNaN y = false)
    (higher : i < j) (yx : y ≤ x) (xbest : x ≤ best) (h : f.admits best j y = true) :
    f.admits best i x = true := by
  simp only [MoveFilter.admits, Bool.or_eq_true, Bool.and_eq_true, decide_eq_true_iff] at h ⊢
  refine h.imp higher.trans fun ⟨extra, near⟩ => ⟨higher.trans extra, ?_⟩
  exact Scalar.LawfulOrder.sub_le_of_le hbest hx hy limited yx xbest near

/-- **Nothing is lost by stopping at the first move that a filter turns down.** -/
theorem survivors_eq_admitted (limited : ¬Scalar.largest < f.threshold)
    (numbers : ∀ x ∈ order, Scalar.isNaN x.equity = false)
    (descending : order.Pairwise fun x y => y.equity ≤ x.equity) :
    survivors f order = admitted f order := by
  cases order with
  | nil => rfl
  | cons best others =>
    have hbest := numbers best List.mem_cons_self
    have greatest : ∀ x ∈ best :: others, x.equity ≤ best.equity :=
      List.forall_mem_cons.2 ⟨Scalar.le_refl hbest, (List.pairwise_cons.1 descending).1⟩
    rw [survivors, admitted]
    change ((best :: others).zipIdx.takeWhile fun (x, rank) =>
      f.admits best.equity rank x.equity).map Prod.fst = _
    rw [takeWhile_eq_filter]
    rw [List.pairwise_iff_getElem] at descending ⊢
    intro i j hi hj lt
    rw [List.length_zipIdx] at hi hj
    simp only [List.getElem_zipIdx, Nat.zero_add]
    have hx := List.getElem_mem hi
    exact admits_of_admits limited hbest (numbers _ hx) (numbers _ (List.getElem_mem hj)) lt
      (descending i j hi hj lt) (greatest _ hx)

end

/-! ## The first of the greatest -/

/-- **A move leads others** in an order of their equities: it is one of them, none is above it, and each
that comes before it is below it. -/
def FirstGreatest (le : α → α → Prop) (moves : List (RankedMove α Move)) (e : Move × Nat) : Prop :=
  ∃ before x after, moves = before ++ x :: after ∧ x.entry = e ∧
    (∀ y ∈ before, ¬le x.equity y.equity) ∧ ∀ y ∈ moves, le y.equity x.equity

omit [Scalar α] in
theorem FirstGreatest.mem {le : α → α → Prop} {moves : List (RankedMove α Move)} {e : Move × Nat}
    (h : FirstGreatest le moves e) : e ∈ moves.map entry := by
  obtain ⟨before, x, after, rfl, rfl, -⟩ := h
  exact List.mem_map_of_mem (List.mem_append_right _ List.mem_cons_self)

/-- The best so far among moves that have been looked at, with its equity. -/
def BestSoFar (moves : List (RankedMove α Move)) (best : RankedMove α Move × Option α) : Prop :=
  ∃ before x after e, moves = before ++ x :: after ∧ x.entry = best.1.entry ∧
    (∀ y ∈ before, ¬x.equity ≤ y.equity) ∧ (∀ y ∈ moves, y.equity ≤ x.equity) ∧
    best.2 = some e ∧ Scalar.isNaN e = false ∧ e ≤ x.equity ∧ x.equity ≤ e

section

variable [Scalar.LawfulOrder α] {x y : RankedMove α Move} {moves : List (RankedMove α Move)}
  {best : RankedMove α Move × Option α}

/-- The first move is the best so far, also where its equity is the lowest one. -/
theorem bestSoFar_singleton (hy : Scalar.isNaN y.equity = false) (same : x.entry = y.entry) :
    BestSoFar [y] (betterMove (x, Scalar.lowest?) y) := by
  have only : ∀ z ∈ [y], z.equity ≤ y.equity := List.forall_mem_singleton.2 (Scalar.le_refl hy)
  have itself : BestSoFar [y] (y, some y.equity) :=
    ⟨[], y, [], y.equity, rfl, rfl, nofun, only, rfl, hy, Scalar.le_refl hy, Scalar.le_refl hy⟩
  rw [betterMove]
  cases lowest : (Scalar.lowest? : Option α) with
  | none => exact itself
  | some l =>
    obtain ⟨hl, least⟩ := Scalar.LawfulOrder.lowest_le lowest hy
    dsimp only
    split
    next => exact itself
    next below =>
      exact ⟨[], y, [], l, rfl, same.symm, nofun, only, rfl, hl, least, Scalar.le_of_not_lt hl hy below⟩

theorem BestSoFar.append (h : BestSoFar moves best)
    (numbers : ∀ z ∈ moves ++ [y], Scalar.isNaN z.equity = false) :
    BestSoFar (moves ++ [y]) (betterMove best y) := by
  obtain ⟨before, x, after, e, rfl, same, first, greatest, stored, he, ex, xe⟩ := h
  obtain ⟨number, hy⟩ := List.forall_mem_append.1 numbers
  replace hy := hy y (List.mem_singleton_self y)
  have hx := number x (List.mem_append_right _ List.mem_cons_self)
  rw [betterMove, stored]
  dsimp only
  split
  next above =>
    have below : ∀ z ∈ before ++ x :: after, z.equity ≤ e := fun z hz =>
      Scalar.LawfulOrder.le_trans (number z hz) hx he (greatest z hz) xe
    refine ⟨before ++ x :: after, y, [], y.equity, rfl, rfl, fun z hz yz => ?_,
      List.forall_mem_append.2 ⟨fun z hz => ?_, List.forall_mem_singleton.2 (Scalar.le_refl hy)⟩,
      rfl, hy, Scalar.le_refl hy, Scalar.le_refl hy⟩
    · exact (Scalar.LawfulOrder.lt_iff he hy).1 above
        (Scalar.LawfulOrder.le_trans hy (number z hz) he yz (below z hz))
    · exact Scalar.LawfulOrder.le_trans (number z hz) he hy (below z hz) (Scalar.le_of_lt he hy above)
  next notAbove =>
    have ye := Scalar.le_of_not_lt he hy notAbove
    refine ⟨before, x, after ++ [y], e, List.append_assoc .., same, first, ?_, stored, he, ex, xe⟩
    exact List.forall_mem_append.2 ⟨greatest,
      List.forall_mem_singleton.2 (Scalar.LawfulOrder.le_trans hy he hx ye ex)⟩

/-- **A look at one move after the other leaves the first of the greatest**, if it starts from the first
of them. -/
theorem firstGreatest_foldl (same : x.entry = y.entry)
    (numbers : ∀ z ∈ y :: moves, Scalar.isNaN z.equity = false) :
    FirstGreatest (· ≤ ·) (y :: moves)
      ((y :: moves).foldl betterMove (x, Scalar.lowest?)).1.entry := by
  have best : BestSoFar (y :: moves) ((y :: moves).foldl betterMove (x, Scalar.lowest?)) := by
    induction moves using List.reverseRecOn with
    | nil => exact bestSoFar_singleton (numbers y List.mem_cons_self) same
    | append_singleton moves z ih =>
      rw [← List.cons_append, List.foldl_append]
      exact (ih (List.forall_mem_append.1 numbers).1).append numbers
  obtain ⟨before, z, after, e, eq, same, first, greatest, -⟩ := best
  exact ⟨before, z, after, eq, same, first, greatest⟩

end

/-- **The first of a ranking** leads the moves as they are listed. -/
theorem Ranking.firstGreatest [Scalar.LawfulRank α] {moves others : List (RankedMove α Move)}
    {listed : List Move} {best : RankedMove α Move} (numbered : moves.map entry = listed.zipIdx)
    (order : Ranking moves (best :: others)) :
    FirstGreatest (Scalar.rankLE · · = true) moves best.entry := by
  obtain ⟨first, -⟩ := List.pairwise_cons.1 order.before
  have ascending : moves.Pairwise fun x y => x.index < y.index :=
    List.pairwise_map.1 (by rw [map_index numbered]; exact List.pairwise_lt_range)
  obtain ⟨before, after, rfl⟩ := List.append_of_mem (order.perm.mem_iff.1 List.mem_cons_self)
  have earlier := fun y hy => (List.pairwise_append.1 ascending).2.2 y hy best List.mem_cons_self
  refine ⟨before, best, after, rfl, rfl, fun y hy reversed => ?_, fun y hy => ?_⟩
  · rcases List.mem_cons.1 (order.perm.mem_iff.2 (List.mem_append_left _ hy)) with rfl | later
    · exact Nat.lt_irrefl _ (earlier y hy)
    · exact Nat.lt_asymm (earlier y hy) ((first y later).2 reversed)
  · rcases List.mem_cons.1 (order.perm.mem_iff.2 hy) with rfl | later
    · exact (Scalar.LawfulRank.total _ _).elim id id
    · exact (first y later).1

/-- None of the moves is worth more than the first of a ranking. -/
theorem Ranking.greatest [Scalar.LawfulOrder α] {moves others : List (RankedMove α Move)}
    {best : RankedMove α Move} (order : Ranking moves (best :: others))
    (numbers : ∀ x ∈ moves, Scalar.isNaN x.equity = false) :
    ∀ y ∈ moves, y.equity ≤ best.equity := fun y hy => by
  rcases List.mem_cons.1 (order.perm.mem_iff.2 hy) with rfl | later
  · exact Scalar.le_refl (numbers y hy)
  · exact (List.pairwise_cons.1 order.descending).1 y later

/-! ## Looks -/

/-- Clamped chances leave the equities as they are. -/
theorem normalized_repaired (met : MatchEquity α) (s : Stakes) (v : Equities α) (cubeful : Bool) :
    met.normalized s v.repaired cubeful = met.normalized s v cubeful := by
  rw [Equities.repaired]
  split <;> rfl

namespace Arena

/-- **A look at moves**, one after the other. -/
def lookAt {m : Type → Type} [Monad m] (a : Arena m δ α Board Move) (board : Board) (s : Stakes)
    (c : EvalSettings α) (entries : List (Move × Nat)) :
    ExceptT TrialError m (List (RankedMove α Move)) :=
  entries.mapM fun (move, i) => a.rate board s c i move

variable (a : Arena (StateM σ) δ α Board Move)

/-- **Moves have equities**: every look at one of them comes to a number. -/
def Rates (board : Board) (s : Stakes) (c : EvalSettings α) (moves : List Move) : Prop :=
  ∀ move ∈ moves, ∀ w, ∃ e w', Yields (a.equityAfter (a.game.play board move) s c) w e w' ∧
    Scalar.isNaN e = false

variable {a} {board : Board} {s : Stakes} {c : EvalSettings α} {moves : List Move}

theorem Rates.exists_lookAt (rates : a.Rates board s c moves) {entries : List (Move × Nat)}
    (among : ∀ e ∈ entries, e.1 ∈ moves) (w : σ) :
    ∃ looked w', Yields (a.lookAt board s c entries) w looked w' ∧ looked.map entry = entries ∧
      ∀ x ∈ looked, Scalar.isNaN x.equity = false := by
  refine Yields.exists_mapM (fun (move, i) he w => ?_) w
  obtain ⟨e, w', equity, number⟩ := rates move (among _ he) w
  exact ⟨⟨i, move, e⟩, w', Yields.bind_iff.2 ⟨e, w', equity, Yields.pure_iff.2 ⟨rfl, rfl⟩⟩, rfl, number⟩

variable (a board s c moves)

/-- **How the play of a roll is chosen**, and in which state of the world this leaves. -/
inductive Chosen (w : σ) : Move × Nat → σ → Prop
  /-- A move that is the only one is not looked at. -/
  | only {move} (single : moves = [move]) : Chosen w (move, 0) w
  /-- Without a filter the first of the greatest is played. -/
  | ranked {screened w' e} (several : 2 ≤ moves.length)
    (screen : Yields (a.lookAt board s { c with plies := 0 } moves.zipIdx) w screened w')
    (listed : screened.map entry = moves.zipIdx)
    (unfiltered : c.plies = 0 ∨ a.settings.moveFilter? c.plies = none)
    (greatest : ∃ x ∈ screened, x.entry = e ∧ ∀ y ∈ screened, y.equity ≤ x.equity)
    (first : FirstGreatest (Scalar.rankLE · · = true) screened e) : Chosen w e w'
  /-- Else the admitted moves, from the best to the worst, are looked at again. -/
  | searched {screened w₁ order f looked w' e} (several : 2 ≤ moves.length)
    (screen : Yields (a.lookAt board s { c with plies := 0 } moves.zipIdx) w screened w₁)
    (listed : screened.map entry = moves.zipIdx) (ranking : Ranking screened order)
    (deep : 0 < c.plies) (filtered : a.settings.moveFilter? c.plies = some f)
    (search : Yields (a.lookAt board s c ((admitted f order).map entry)) w₁ looked w')
    (again : looked.map entry = (admitted f order).map entry)
    (all : admitted f order = order → (looked.map entry).Perm moves.zipIdx)
    (greatest : FirstGreatest (· ≤ ·) looked e) : Chosen w e w'

end Arena

/-! ## The choice -/

section

variable {a : Arena (StateM σ) δ α Board Move} {board : Board} {s : Stakes} {first : Move}
  {rest : List Move} {c : EvalSettings α} {w w₁ w' : σ} {screened looked others : List (RankedMove α Move)}
  {best : RankedMove α Move}

/-- With several moves the choice begins with a look without search. -/
theorem yields_chooseMove_ranked (several : rest ≠ [])
    (screen : Yields (a.lookAt board s { c with plies := 0 } (first :: rest).zipIdx) w screened w')
    (order : ranked screened = best :: others) (unfiltered : a.settings.moveFilter? c.plies = none) :
    Yields (a.chooseMove board s first rest c) w (best.index, best.move) w' := by
  rw [Arena.chooseMove, if_neg (by simpa using several)]
  refine Yields.bind_iff.2 ⟨screened, w', screen, ?_⟩
  simp only [order, unfiltered]
  exact Yields.pure_iff.2 ⟨rfl, rfl⟩

/-- With a filter it goes on with a look at the moves that survive. -/
theorem yields_chooseMove_searched {f : MoveFilter α} (several : rest ≠ [])
    (screen : Yields (a.lookAt board s { c with plies := 0 } (first :: rest).zipIdx) w screened w₁)
    (order : ranked screened = best :: others) (filtered : a.settings.moveFilter? c.plies = some f)
    (search : Yields (a.lookAt board s c ((survivors f (best :: others)).map entry)) w₁ looked w') :
    Yields (a.chooseMove board s first rest c) w
      (looked.foldl betterMove (best, Scalar.lowest?)).1.entry.swap w' := by
  rw [Arena.chooseMove, if_neg (by simpa using several)]
  refine Yields.bind_iff.2 ⟨screened, w₁, screen, ?_⟩
  simp only [order, filtered]
  rw [Arena.lookAt, List.mapM_map] at search
  exact Yields.bind_iff.2 ⟨looked, w', search, Yields.pure_iff.2 ⟨rfl, rfl⟩⟩

/-- What is chosen is one of the moves. -/
theorem Arena.Chosen.mem {moves : List Move} {e : Move × Nat} (h : a.Chosen board s c moves w e w') :
    e ∈ moves.zipIdx := by
  cases h with
  | only single =>
    rw [single]
    exact List.mem_singleton_self _
  | ranked _ _ listed _ _ first => exact listed ▸ first.mem
  | @searched screened w₁ order f looked w' e _ _ listed ranking _ _ _ again _ greatest =>
    have mem := greatest.mem
    rw [again] at mem
    obtain ⟨x, hx, rfl⟩ := List.mem_map.1 mem
    rw [← listed]
    exact List.mem_map_of_mem (ranking.perm.mem_iff.1 (mem_of_mem_admitted hx))

variable [Scalar.LawfulOrder α]

/-- **The play of a roll among several moves**: with equities that are numbers and a limit on closeness
that is finite, a move is chosen as described. -/
theorem chooseMove_chosen (screens : a.Rates board s { c with plies := 0 } (first :: rest))
    (rates : a.Rates board s c (first :: rest))
    (limited : ∀ f, a.settings.moveFilter? c.plies = some f → ¬Scalar.largest < f.threshold) (w : σ) :
    ∃ i move w', Yields (a.chooseMove board s first rest c) w (i, move) w' ∧
      (first :: rest)[i]? = some move ∧ a.Chosen board s c (first :: rest) w (move, i) w' := by
  suffices ∃ e w', Yields (a.chooseMove board s first rest c) w e.swap w' ∧
      a.Chosen board s c (first :: rest) w e w' by
    obtain ⟨e, w', yields, chosen⟩ := this
    exact ⟨e.2, e.1, w', yields, List.mk_mem_zipIdx_iff_getElem?.1 chosen.mem, chosen⟩
  by_cases several : rest = []
  · subst several
    exact ⟨(first, 0), w, Yields.pure_iff.2 ⟨rfl, rfl⟩, .only rfl⟩
  have two : 2 ≤ (first :: rest).length := by
    have := List.length_pos_iff.2 several
    rw [List.length_cons]
    omega
  obtain ⟨screened, w₁, screen, listed, numbers⟩ :=
    screens.exists_lookAt (fun e he => List.fst_mem_of_mem_zipIdx he) w
  obtain ⟨best, others, order, ranking⟩ := exists_ranked listed numbers
  have number : ∀ x ∈ best :: others, Scalar.isNaN x.equity = false :=
    fun x hx => numbers x (ranking.perm.mem_iff.1 hx)
  cases filter : a.settings.moveFilter? c.plies with
  | none =>
    refine ⟨best.entry, w₁, yields_chooseMove_ranked several screen order filter, ?_⟩
    exact .ranked two screen listed (.inr filter)
      ⟨best, ranking.perm.mem_iff.1 List.mem_cons_self, rfl, ranking.greatest numbers⟩
      (ranking.firstGreatest listed)
  | some f =>
    have among : ∀ e ∈ (admitted f (best :: others)).map entry, e.1 ∈ first :: rest := by
      intro e he
      obtain ⟨x, hx, rfl⟩ := List.mem_map.1 he
      have mem := List.mem_map_of_mem (f := entry) (ranking.perm.mem_iff.1 (mem_of_mem_admitted hx))
      rw [listed] at mem
      exact List.fst_mem_of_mem_zipIdx mem
    obtain ⟨looked, w', search, again, equities⟩ := rates.exists_lookAt among w₁
    have survived := survivors_eq_admitted (limited f filter) number ranking.descending
    refine ⟨_, w', yields_chooseMove_searched several screen order filter (survived ▸ search), ?_⟩
    refine .searched two screen listed ranking (pos_of_moveFilter? filter) filter search again
      (fun all => ?_) ?_
    · rw [again, all, ← listed]
      exact ranking.perm.map entry
    · obtain ⟨more, begins⟩ := admitted_cons f best others
      rw [begins, List.map_cons] at again
      obtain ⟨y, ys, rfl, same, -⟩ := List.map_eq_cons_iff.1 again
      exact firstGreatest_foldl same.symm equities

end

/-! ### Moves that seem worth more, or less, than they are -/

/-- A game in which a move is what it leaves to the opponent, as it seems without search and as it is.
The world counts the looks.  A look two plies deep is at all moves that are no more than infinitely
worse than the best. -/
def appraised : Arena (StateM Nat) Unit Float (Float × Float) (Float × Float) where
  game := {
    legalMoves := fun _ _ => []
    play := fun _ left => left
    pass := id
    outcome? := fun _ => none }
  evaluator left _ c := do
    modify (· + 1)
    return (Equities.ofChances 0.5 0 0 0 0).withCubeful (if c.plies = 0 then left.1 else left.2)
  met := ⟨fun _ _ _ => 0.5⟩
  settings := { Settings.standard with moveFilters := [⟨1, 8, 0.16⟩, ⟨0, 8, 1 / 0⟩] }
  roll _ := pure (⟨1, 2⟩, ())
  interrupted _ := pure false

def atDepth (plies : Nat) : EvalSettings Float := { EvalSettings.static with plies }

theorem yields_equityAfter_appraised (board move : Float × Float) (plies w : Nat) :
    Yields (appraised.equityAfter (appraised.game.play board move) (.money .zero) (atDepth plies)) w
      (-(if plies = 0 then move.1 else move.2)) (w + 1) := by
  let v := (Equities.ofChances (0.5 : Float) 0 0 0 0).withCubeful
    (if plies = 0 then move.1 else move.2)
  have answer : Yields (appraised.evaluate move (Stakes.money .zero).swapTurn (atDepth plies)) w
      v.repaired (w + 1) :=
    Yields.bind_iff.2 ⟨v, w + 1, Yields.adapt_iff.2 rfl, Yields.pure_iff.2 ⟨rfl, rfl⟩⟩
  refine Yields.bind_iff.2 ⟨v.repaired, w + 1, answer, Yields.pure_iff.2 ⟨?_, rfl⟩⟩
  rw [normalized_repaired]
  rfl

theorem rates_appraised (plies : Nat) {moves : List (Float × Float)}
    (numbers : ∀ left ∈ moves, (-left.1).isNaN = false ∧ (-left.2).isNaN = false) :
    appraised.Rates (0, 0) (.money .zero) (atDepth plies) moves := by
  intro left hl w
  refine ⟨_, _, yields_equityAfter_appraised _ left plies w, ?_⟩
  split
  · exact (numbers left hl).1
  · exact (numbers left hl).2

/-- The third move seems to be next to the best, and is better; that the first one is better still is
not seen.  There are three looks without search and two with it. -/
theorem appraised_chosen :
    let moves : List (Float × Float) := [(-0.25, -1), (-0.5, -0.25), (-0.375, -0.5)]
    Yields (appraised.chooseMove (0, 0) (.money .zero) (-0.25, -1) [(-0.5, -0.25), (-0.375, -0.5)]
        (atDepth 1)) 0 (2, (-0.375, -0.5)) 5 ∧
      appraised.Chosen (0, 0) (.money .zero) (atDepth 1) moves 0 ((-0.375, -0.5), 2) 5 := by
  intro moves
  let best : RankedMove Float (Float × Float) := ⟨1, (-0.5, -0.25), 0.5⟩
  let others : List (RankedMove Float (Float × Float)) :=
    [⟨2, (-0.375, -0.5), 0.375⟩, ⟨0, (-0.25, -1), 0.25⟩]
  let screened : List (RankedMove Float (Float × Float)) :=
    [⟨0, (-0.25, -1), 0.25⟩, best, ⟨2, (-0.375, -0.5), 0.375⟩]
  let looked : List (RankedMove Float (Float × Float)) :=
    [⟨1, (-0.5, -0.25), 0.25⟩, ⟨2, (-0.375, -0.5), 0.5⟩]
  have screen : Yields (appraised.lookAt (0, 0) (.money .zero) (atDepth 0) moves.zipIdx) 0 screened
    3 := by decide +kernel
  have order : ranked screened = best :: others :=
    ranked_eq moves (by decide +kernel) (by decide +kernel) (by decide +kernel)
  have search : Yields (appraised.lookAt (0, 0) (.money .zero) (atDepth 1)
    ((survivors ⟨1, 8, 0.16⟩ (best :: others)).map entry)) 3 looked 5 := by decide +kernel
  have last : (looked.foldl betterMove (best, Scalar.lowest?)).1.entry.swap =
    (2, (-0.375, -0.5)) := by decide +kernel
  have run := yields_chooseMove_searched (c := atDepth 1) (List.cons_ne_nil _ _) screen order rfl search
  rw [last] at run
  have numbers : ∀ left ∈ moves, (-left.1).isNaN = false ∧ (-left.2).isNaN = false := by
    decide +kernel
  have limited : ∀ f, appraised.settings.moveFilter? 1 = some f → ¬Scalar.largest < f.threshold := by
    rintro f ⟨⟩
    decide +kernel
  obtain ⟨i, move, w', yields, -, chosen⟩ := chooseMove_chosen (c := atDepth 1)
    (rates_appraised 0 numbers) (rates_appraised 1 numbers) limited 0
  obtain ⟨ok, rfl⟩ := Prod.mk.inj (yields.symm.trans run)
  obtain ⟨rfl, rfl⟩ := Prod.mk.inj (Except.ok.inj ok)
  exact ⟨run, chosen⟩

/-- Of two zeros the positive one is ranked first, wherever it is listed; a move that is the only one is
not looked at, whatever the filter; next to an infinite equity a filter without limit turns down another
one, but not a finite one; and a filter with more extra moves than fit turns down what is next to the
best. -/
theorem appraised_exceptions :
    (Yields (appraised.lookAt (0, 0) (.money .zero) (atDepth 0) [(0, 0), (-0, 0)].zipIdx) 0
          [⟨0, (0, 0), -0⟩, ⟨1, (-0, 0), 0⟩] 2 ∧ (0 : Float) ≤ -0 ∧
        Yields (appraised.chooseMove (0, 0) (.money .zero) (0, 0) [(-0, 0)] (atDepth 0)) 0
          (1, (-0, 0)) 2) ∧
      (appraised.settings.moveFilter? 1 = some ⟨1, 8, 0.16⟩ ∧
        Yields (appraised.lookAt (0, 0) (.money .zero) (atDepth 1) [(0, 0)].zipIdx) 0
          [⟨0, (0, 0), -0⟩] 1 ∧
        Yields (appraised.chooseMove (0, 0) (.money .zero) (0, 0) [] (atDepth 1)) 0 (0, (0, 0)) 0) ∧
      ((survivors (⟨0, 8, 1 / 0⟩ : MoveFilter Float)
          [⟨0, (), 1 / 0⟩, ⟨1, (), 1 / 0⟩, ⟨2, (), 0⟩]).map entry = [((), 0)] ∧
        (admitted (⟨0, 8, 1 / 0⟩ : MoveFilter Float)
          [⟨0, (), 1 / 0⟩, ⟨1, (), 1 / 0⟩, ⟨2, (), 0⟩]).map entry = [((), 0), ((), 2)]) ∧
      1 < 1 + 18446744073709551615 ∧ (0.5 - 0.5 : Float) ≤ 0.16 ∧
        (survivors (⟨1, 18446744073709551615, 0.16⟩ : MoveFilter Float)
          [⟨0, (), 0.5⟩, ⟨1, (), 0.5⟩]).map entry = [((), 0)] := by
  have looked : Yields (appraised.lookAt (0, 0) (.money .zero) (atDepth 0)
    [(0, 0), (-0, 0)].zipIdx) 0 [⟨0, (0, 0), -0⟩, ⟨1, (-0, 0), 0⟩] 2 := by decide +kernel
  have order : ranked [⟨0, (0, 0), -0⟩, ⟨1, (-0, 0), 0⟩] =
      [(⟨1, (-0, 0), 0⟩ : RankedMove Float (Float × Float)), ⟨0, (0, 0), -0⟩] :=
    ranked_eq [(0, 0), (-0, 0)] (by decide +kernel) (by decide +kernel) (by decide +kernel)
  have chosen := yields_chooseMove_ranked (c := atDepth 0) (List.cons_ne_nil _ _) looked order rfl
  have only : Yields (appraised.chooseMove (0, 0) (.money .zero) (0, 0) [] (atDepth 1)) 0
    (0, (0, 0)) 0 := Yields.pure_iff.2 ⟨rfl, rfl⟩
  refine ⟨⟨looked, ?_, chosen⟩, ⟨rfl, ?_, only⟩, ⟨?_, ?_⟩, by decide, ?_, ?_⟩ <;> decide +kernel

end Backgammon.Rollout
