import Mathlib.Data.List.Dedup
import Mathlib.Data.List.DropRight
import HostRotation.Cursors

namespace HostRotation
namespace Cursors

inductive Op where
  | draw (profile : String)
  | seed (profile : String) (value : UInt64)
  | peek (profile : String)
  | clear
  | size
  deriving DecidableEq, Repr

inductive Answer where
  | done
  | drawn (value : UInt64)
  | next (value : Option UInt64)
  | size (profiles : Nat)
  deriving DecidableEq, Repr

namespace Op

def apply (c : Cursors) : Op → Answer × Cursors
  | .draw p => (.drawn (c.draw p).1, (c.draw p).2)
  | .seed p v => (.done, c.seed p v)
  | .peek p => (.next (c.peek p), c)
  | .clear => (.done, empty)
  | .size => (.size c.size, c)

def profile? : Op → Option String
  | .draw p | .seed p _ | .peek p => some p
  | .clear | .size => none

def used? : Op → Option String
  | .draw p | .seed p _ => some p
  | .peek _ | .clear | .size => none

def seeded? (profile : String) : Op → Option UInt64
  | .seed p v => if p = profile then some v else none
  | .draw _ | .peek _ | .clear | .size => none

def concerns (profile : String) (op : Op) : Bool :=
  op.profile? = some profile || op = .clear

end Op

def after (c : Cursors) (ops : List Op) : Cursors :=
  ops.foldl (fun c op => (op.apply c).2) c

def answers (c : Cursors) : List Op → List Answer
  | [] => []
  | op :: ops => (op.apply c).1 :: (op.apply c).2.answers ops

def answersOn (c : Cursors) (profile : String) (ops : List Op) : List (Op × Answer) :=
  (ops.zip (c.answers ops)).filter fun x => x.1.profile? = some profile

namespace History

/-- The operations since the cursors were last cleared. -/
def sinceClear (ops : List Op) : List Op :=
  ops.rtakeWhile (· ≠ .clear)

def used (ops : List Op) : List String :=
  (sinceClear ops).filterMap Op.used?

def seeded (profile : String) (ops : List Op) : UInt64 :=
  ((sinceClear ops).filterMap (Op.seeded? profile)).getLast?.getD 0

/-- The operations since the cursors were last cleared and a profile's counter was last set. -/
def sinceSeed (profile : String) (ops : List Op) : List Op :=
  (sinceClear ops).rtakeWhile fun op => (op.seeded? profile).isNone

/-- The value that a profile's next draw hands out. -/
def due (profile : String) (ops : List Op) : UInt64 :=
  seeded profile ops + .ofNat ((sinceSeed profile ops).count (.draw profile))

/-- What an operation answers after others. -/
def answer (ops : List Op) : Op → Answer
  | .draw p => .drawn (due p ops)
  | .seed _ _ | .clear => .done
  | .peek p => .next (if p ∈ used ops then some (due p ops) else none)
  | .size => .size (used ops).dedup.length

variable {ops : List Op} {op : Op} {p q : String}

@[simp] theorem sinceClear_nil : sinceClear [] = [] :=
  rfl

@[simp] theorem sinceClear_clear : sinceClear (ops ++ [.clear]) = [] := by
  simp [sinceClear]

theorem sinceClear_snoc (h : op ≠ .clear) : sinceClear (ops ++ [op]) = sinceClear ops ++ [op] := by
  simp [sinceClear, h]

theorem mem_used_iff : p ∈ used ops ↔ ∃ op ∈ sinceClear ops, op.used? = some p :=
  List.mem_filterMap

theorem used_snoc (h : op ≠ .clear) : used (ops ++ [op]) = used ops ++ op.used?.toList := by
  rw [used, sinceClear_snoc h, List.filterMap_append, used]
  cases op <;> rfl

theorem due_of_seeded? {v : UInt64} (h : op.seeded? p = some v) : due p (ops ++ [op]) = v := by
  have hop : op ≠ .clear := by
    rintro rfl
    cases h
  have hlast : seeded p (ops ++ [op]) = v := by
    simp [seeded, sinceClear_snoc hop, List.filterMap_append, h]
  simp [due, hlast, sinceSeed, sinceClear_snoc hop, h]

theorem due_snoc (hop : op ≠ .clear) (h : op.seeded? p = none) :
    due p (ops ++ [op]) = due p ops + if op = .draw p then 1 else 0 := by
  have hlast : seeded p (ops ++ [op]) = seeded p ops := by
    simp [seeded, sinceClear_snoc hop, List.filterMap_append, h]
  have hcount : (sinceSeed p (ops ++ [op])).count (.draw p) =
      (sinceSeed p ops).count (.draw p) + if op = .draw p then 1 else 0 := by
    simp [sinceSeed, sinceClear_snoc hop, h, List.count_cons]
  rw [due, hlast, hcount, UInt64.ofNat_add, ← UInt64.add_assoc, due]
  split <;> rfl

theorem due_of_not_mem_used (h : p ∉ used ops) : due p ops = 0 := by
  have hunused : ∀ op ∈ sinceClear ops, op.used? ≠ some p := by
    intro op hop hu
    exact h (mem_used_iff.2 ⟨op, hop, hu⟩)
  have hseeds : (sinceClear ops).filterMap (Op.seeded? p) = [] := by
    rw [List.filterMap_eq_nil_iff]
    intro op hop
    have hu := hunused op hop
    cases op <;> simp_all [Op.seeded?, Op.used?]
  have hdraws : (sinceSeed p ops).count (.draw p) = 0 := by
    rw [List.count_eq_zero]
    intro hd
    exact hunused _ ((List.rtakeWhile_suffix _ _).mem hd) rfl
  rw [due, seeded, hseeds, hdraws]
  rfl

end History

open History

variable {c c' : Cursors} {op : Op} {p : String} {ops : List Op}

theorem after_snoc (c : Cursors) (ops : List Op) (op : Op) :
    c.after (ops ++ [op]) = (op.apply (c.after ops)).2 := by
  simp [after]

theorem value_of_peek (h : c.peek p = if p ∈ used ops then some (due p ops) else none) :
    c.value p = due p ops := by
  rw [value, h]
  split
  · rfl
  · next hp => exact (due_of_not_mem_used hp).symm

theorem peek_after (ops : List Op) (p : String) :
    (empty.after ops).peek p = if p ∈ used ops then some (due p ops) else none := by
  induction ops using List.reverseRecOn with
  | nil => exact peek_empty p
  | append_singleton ops op ih =>
    rw [after_snoc]
    cases op with
    | draw q =>
      have hop : Op.draw q ≠ .clear := nofun
      rw [Op.apply, peek_draw, used_snoc hop]
      by_cases hq : q = p
      · subst q
        simp [Op.used?, value_of_peek ih, due_snoc hop rfl]
      · have hp : p ≠ q := Ne.symm hq
        simp [Op.used?, hq, hp, ih, due_snoc (p := p) hop rfl]
    | seed q v =>
      have hop : Op.seed q v ≠ .clear := nofun
      rw [Op.apply, peek_seed, used_snoc hop]
      by_cases hq : q = p
      · subst q
        have hseeded : (Op.seed p v).seeded? p = some v := if_pos rfl
        simp [Op.used?, due_of_seeded? hseeded]
      · have hp : p ≠ q := Ne.symm hq
        simp [Op.used?, hq, hp, ih, due_snoc (p := p) hop (if_neg hq)]
    | peek | size =>
      rw [Op.apply, ih, used_snoc, due_snoc]
      all_goals simp [Op.used?, Op.seeded?]
    | clear => simp [Op.apply, used]

theorem size_after (ops : List Op) : (empty.after ops).size = (used ops).dedup.length := by
  have hmem (p : String) : p ∈ (empty.after ops).counters.keys ↔ p ∈ (used ops).dedup := by
    have hpeek := peek_after ops p
    rw [peek] at hpeek
    rw [Std.ExtTreeMap.mem_keys, ← Std.ExtTreeMap.isSome_getElem?_iff_mem, hpeek, List.mem_dedup]
    split <;> simp_all
  have hperm := (List.perm_ext_iff_of_nodup Std.ExtTreeMap.nodup_keys (List.nodup_dedup _)).2 hmem
  rw [size, ← hperm.length_eq, Std.ExtTreeMap.length_keys]

theorem answer_after (ops : List Op) (op : Op) :
    (op.apply (empty.after ops)).1 = answer ops op := by
  cases op with
  | draw p => exact congrArg Answer.drawn (value_of_peek (peek_after ops p))
  | seed p v => rfl
  | peek p => exact congrArg Answer.next (peek_after ops p)
  | clear => rfl
  | size => exact congrArg Answer.size (size_after ops)

theorem answers_of_after (before ops : List Op) :
    (empty.after before).answers ops =
      ops.mapIdx fun i op => answer (before ++ ops.take i) op := by
  induction ops generalizing before with
  | nil => rfl
  | cons op ops ih =>
    rw [answers, answer_after, ← after_snoc, ih, List.mapIdx_cons]
    simp

theorem answers_eq_mapIdx (ops : List Op) :
    empty.answers ops = ops.mapIdx fun i op => answer (ops.take i) op :=
  answers_of_after [] ops

theorem apply_congr (h : c.peek p = c'.peek p) (hop : op.profile? = some p) :
    (op.apply c).1 = (op.apply c').1 ∧ (op.apply c).2.peek p = (op.apply c').2.peek p := by
  have hvalue : c.value p = c'.value p := congrArg (Option.getD · 0) h
  cases op with
  | draw q =>
    obtain rfl : q = p := Option.some.inj hop
    simp [Op.apply, draw, hvalue, peek_seed]
  | seed q v =>
    obtain rfl : q = p := Option.some.inj hop
    simp [Op.apply, peek_seed]
  | peek q =>
    obtain rfl : q = p := Option.some.inj hop
    simp [Op.apply, h]
  | clear | size => cases hop

theorem peek_apply_of_ne (c : Cursors) (hop : op.profile? ≠ some p) (hclear : op ≠ .clear) :
    (op.apply c).2.peek p = c.peek p := by
  cases op with
  | draw q =>
    rw [Op.apply, peek_draw, if_neg fun hq => hop (congrArg some hq)]
  | seed q v =>
    rw [Op.apply, peek_seed, if_neg fun hq => hop (congrArg some hq)]
  | peek | size => rfl
  | clear => exact absurd rfl hclear

theorem answersOn_cons (c : Cursors) (p : String) (op : Op) (ops : List Op) :
    c.answersOn p (op :: ops) =
      (if op.profile? = some p then [(op, (op.apply c).1)] else []) ++
        (op.apply c).2.answersOn p ops := by
  rw [answersOn, answers, List.zip_cons_cons, List.filter_cons]
  by_cases hop : op.profile? = some p <;> simp [hop, answersOn]

theorem answersOn_filter (h : c.peek p = c'.peek p) (ops : List Op) :
    c.answersOn p ops = c'.answersOn p (ops.filter (Op.concerns p)) := by
  induction ops generalizing c c' with
  | nil => rfl
  | cons op ops ih =>
    by_cases hop : op.profile? = some p
    · have hkeep : op.concerns p = true := by simp [Op.concerns, hop]
      obtain ⟨hanswer, hnext⟩ := apply_congr h hop
      rw [List.filter_cons_of_pos hkeep, answersOn_cons, answersOn_cons, hanswer, ih hnext]
    by_cases hclear : op = .clear
    · have hkeep : op.concerns p = true := by simp [Op.concerns, hclear]
      subst op
      rw [List.filter_cons_of_pos hkeep, answersOn_cons, answersOn_cons, if_neg hop, if_neg hop]
      exact congrArg ([] ++ ·) (ih rfl)
    · have hdrop : ¬op.concerns p = true := by simp [Op.concerns, hop, hclear]
      have hnext := (peek_apply_of_ne c hop hclear).trans h
      rw [List.filter_cons_of_neg hdrop, answersOn_cons, if_neg hop, List.nil_append, ih hnext]

/-- Every answer is what the operations before it make it: a profile is unseen unless it was used
since the cursors were last cleared, and else its draws count up from the value that it was last set
to, or from zero. What is answered for a profile stays the same when the operations on other
profiles are left out. -/
theorem answers_eq_history (ops : List Op) :
    empty.answers ops = (ops.mapIdx fun i op => answer (ops.take i) op) ∧
    (∀ p, ((empty.after ops).peek p = none ↔ ∀ op ∈ sinceClear ops, op.used? ≠ some p) ∧
      ((∃ op ∈ sinceClear ops, op.used? = some p) → (empty.after ops).peek p = some (due p ops)) ∧
      ((empty.after ops).draw p).1 = due p ops ∧
      ((empty.after ops).draw p).2.peek p = some (due p ops + 1)) ∧
    (empty.after ops).size = (used ops).dedup.length ∧
    ∀ p, empty.answersOn p ops = empty.answersOn p (ops.filter (Op.concerns p)) := by
  refine ⟨answers_eq_mapIdx ops, fun p => ⟨?_, fun h => ?_, ?_, ?_⟩, size_after ops,
    fun p => answersOn_filter rfl ops⟩
  · rw [peek_after, ite_eq_right_iff]
    simp [mem_used_iff]
  · rw [peek_after, if_pos (mem_used_iff.2 h)]
  · exact value_of_peek (peek_after ops p)
  · rw [peek_draw, if_pos rfl, value_of_peek (peek_after ops p)]

def wrapping : List Op :=
  [.draw "p", .clear, .seed "p" (0 - 1), .draw "p", .draw "q", .draw "p", .size, .peek "r"]

theorem answers_eq_history_wrapping :
    (∃ op ∈ sinceClear wrapping, op.used? = some "p") ∧
      (empty.after wrapping).peek "p" = some 1 ∧ (empty.after wrapping).size = 2 ∧
      empty.answers wrapping = [.drawn 0, .done, .done, .drawn (0 - 1), .drawn 0, .drawn 0, .size 2,
        .next none] := by
  obtain ⟨hanswers, hpeek, hsize, -⟩ := answers_eq_history wrapping
  have hused : ∃ op ∈ sinceClear wrapping, op.used? = some "p" :=
    ⟨.draw "p", by decide, rfl⟩
  exact ⟨hused, (hpeek "p").2.1 hused, hsize, hanswers⟩

end Cursors
end HostRotation
