import Mathlib.Tactic

/-!
One outlet shared by a queue and by a writer that goes around it.

Items are put into a queue and sent from its front, or they are written to the
outlet directly. The order in which the items were meant to leave is the order of
the `put`s and `direct`s; the order in which they do leave is that of the `send`s
and `direct`s. The two agree as long as nothing is written directly while the
queue holds something.

* `Op`, `Chan.step`: the operations and the discipline that keeps the order.
* `wire`, `intended`: what has left and what was meant to leave, both read off a
  list of operations alone.
* `run_wire`, `run_intended`: along a disciplined list of operations these are the
  channel's sent items, and its sent items followed by its queue.
* `wire_prefix_intended`: hence, at every moment of a disciplined list, what has
  left is a prefix of what was meant to leave.
-/

namespace Fifo

variable {α : Type*}

/-- What happens at the outlet. -/
inductive Op (α : Type*)
  /-- Items are appended to the queue. -/
  | put (xs : List α)
  /-- Items leave from the front of the queue. -/
  | send (xs : List α)
  /-- Items leave without having been queued. -/
  | direct (xs : List α)
  /-- The queue is thrown away. -/
  | clear
  deriving DecidableEq

/-- What has left the outlet, and what is queued. -/
structure Chan (α : Type*) where
  sent : List α := []
  queue : List α := []

/-- One operation, `none` where it breaks the order: a `send` of something that is
not the front of the queue, or a `direct` past a queue that is not empty. -/
def Chan.step [DecidableEq α] (ch : Chan α) : Op α → Option (Chan α)
  | .put xs => some { ch with queue := ch.queue ++ xs }
  | .send xs =>
      if xs <+: ch.queue then
        some { sent := ch.sent ++ xs, queue := ch.queue.drop xs.length }
      else none
  | .direct xs => if ch.queue = [] then some { ch with sent := ch.sent ++ xs } else none
  | .clear => some { ch with queue := [] }

/-- A list of operations, in order. -/
def Chan.run [DecidableEq α] (ch : Chan α) : List (Op α) → Option (Chan α)
  | [] => some ch
  | op :: ops => (ch.step op).bind fun ch' => ch'.run ops

/-- What the operations put on the outlet. -/
def wire : List (Op α) → List α
  | [] => []
  | .send xs :: ops | .direct xs :: ops => xs ++ wire ops
  | .put _ :: ops | .clear :: ops => wire ops

/-- One operation's effect on what has left and what was meant to leave: a `put` and
a `direct` are both meant to leave behind everything that is already meant to, and a
`clear` gives up what has not left yet. -/
def intendStep (s : List α × List α) : Op α → List α × List α
  | .put xs => (s.1, s.2 ++ xs)
  | .send xs => (s.1 ++ xs, s.2)
  | .direct xs => (s.1 ++ xs, s.2 ++ xs)
  | .clear => (s.1, s.2.take s.1.length)

/-- The stream that was meant to leave, in the order of the `put`s and `direct`s. -/
def intended (ops : List (Op α)) : List α := (ops.foldl intendStep ([], [])).2

lemma foldl_intendStep_fst (ops : List (Op α)) (s : List α × List α) :
    (ops.foldl intendStep s).1 = s.1 ++ wire ops := by
  induction ops generalizing s with
  | nil => simp [wire]
  | cons op ops ih =>
      cases op <;> simp [ih, intendStep, wire, List.append_assoc]

section Discipline

variable [DecidableEq α]

lemma Chan.run_append (ch : Chan α) (ops ops' : List (Op α)) :
    ch.run (ops ++ ops') = (ch.run ops).bind fun ch' => ch'.run ops' := by
  induction ops generalizing ch with
  | nil => rfl
  | cons op ops ih =>
      simp only [List.cons_append, Chan.run]
      cases ch.step op with
      | none => rfl
      | some ch' => exact ih ch'

lemma Chan.run_append_of_eq_some {ch ch' : Chan α} {ops : List (Op α)}
    (h : ch.run ops = some ch') (ops' : List (Op α)) :
    ch.run (ops ++ ops') = ch'.run ops' := by
  rw [Chan.run_append, h, Option.bind_some]

/-- A beginning of a disciplined list is disciplined. -/
lemma Chan.run_of_prefix {ch ch' : Chan α} {t ops : List (Op α)} (ht : t <+: ops)
    (h : ch.run ops = some ch') : ∃ ch'', ch.run t = some ch'' := by
  obtain ⟨u, rfl⟩ := ht
  rw [Chan.run_append] at h
  cases hr : ch.run t with
  | none => rw [hr] at h; exact absurd h (by simp)
  | some ch'' => exact ⟨ch'', rfl⟩

/-- Along a disciplined list the pair that `intendStep` keeps is what has left, and
what has left followed by the queue. -/
lemma Chan.run_eq {ch ch' : Chan α} {ops : List (Op α)} (h : ch.run ops = some ch') :
    ops.foldl intendStep (ch.sent, ch.sent ++ ch.queue)
      = (ch'.sent, ch'.sent ++ ch'.queue) := by
  induction ops generalizing ch with
  | nil => simp only [Chan.run, Option.some.injEq] at h; subst h; rfl
  | cons op ops ih =>
      simp only [Chan.run] at h
      cases hs : ch.step op with
      | none => rw [hs] at h; exact absurd h (by simp)
      | some ch₁ =>
          rw [hs, Option.bind_some] at h
          rw [List.foldl_cons, ← ih h]
          congr 1
          cases op with
          | put xs =>
              simp only [Chan.step, Option.some.injEq] at hs
              subst hs
              simp [intendStep]
          | send xs =>
              simp only [Chan.step] at hs
              split_ifs at hs with hp
              simp only [Option.some.injEq] at hs
              subst hs
              obtain ⟨u, hu⟩ := hp
              simp [intendStep, ← hu]
          | direct xs =>
              simp only [Chan.step] at hs
              split_ifs at hs with hq
              simp only [Option.some.injEq] at hs
              subst hs
              simp [intendStep, hq]
          | clear =>
              simp only [Chan.step, Option.some.injEq] at hs
              subst hs
              simp [intendStep]

/-- Along a disciplined list, what is on the outlet is what the channel sent. -/
lemma run_wire {ch : Chan α} {ops : List (Op α)}
    (h : Chan.run ({} : Chan α) ops = some ch) : wire ops = ch.sent := by
  have h1 := congrArg Prod.fst (Chan.run_eq h)
  rw [foldl_intendStep_fst] at h1
  simpa using h1

/-- Along a disciplined list, what was meant to leave is what has left and, behind
it, the queue. -/
lemma run_intended {ch : Chan α} {ops : List (Op α)}
    (h : Chan.run ({} : Chan α) ops = some ch) : intended ops = ch.sent ++ ch.queue :=
  congrArg Prod.snd (Chan.run_eq h)

/-- **Order**: at every moment of a disciplined list of operations, what has left is
a prefix of what was meant to leave. -/
theorem wire_prefix_intended {ch : Chan α} {ops : List (Op α)}
    (h : Chan.run ({} : Chan α) ops = some ch) {t : List (Op α)} (ht : t <+: ops) :
    wire t <+: intended t := by
  obtain ⟨ch', hch'⟩ := Chan.run_of_prefix ht h
  rw [run_wire hch', run_intended hch']
  exact List.prefix_append _ _

end Discipline

end Fifo
