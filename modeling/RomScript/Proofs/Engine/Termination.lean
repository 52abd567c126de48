import RomScript.Proofs.Engine.Cases

/-!
# Runs end

A run counts its instructions up, and runs inside each other are counted up too. The
recursion that the two counts and their limits describe is well founded: what a run under way
depends on has a greater depth, or the same depth and a greater count. It therefore
determines every run, and its solution is the walk on the instructions left.
-/

set_option autoImplicit false

namespace RomScript

/-- A run under way: its depth, and the number of instructions it has taken. -/
structure Activation where
  depth : Nat
  ops : Nat

namespace Limits

variable (limits : Limits)

def Allows (activation : Activation) : Prop :=
  activation.depth ≤ limits.maxDepth ∧ activation.ops ≤ limits.maxOps

/-- What a run under way can depend on: itself behind the next instruction, or a run that
begins inside it. -/
inductive Follows : Activation → Activation → Prop
  | next {depth ops : Nat} (h : ops < limits.maxOps) : Follows ⟨depth, ops + 1⟩ ⟨depth, ops⟩
  | call {depth ops : Nat} (h : depth < limits.maxDepth) : Follows ⟨depth + 1, 0⟩ ⟨depth, ops⟩

theorem follows_wellFounded : WellFounded limits.Follows := by
  let remaining : Activation → Nat × Nat := fun activation =>
    (limits.maxDepth - activation.depth, limits.maxOps - activation.ops)
  have hlex := InvImage.wf remaining (inferInstance : WellFoundedRelation (Nat × Nat)).wf
  refine Subrelation.wf (fun {after before} h => ?_) hlex
  cases h with
  | @next depth ops h =>
    have hless : limits.maxOps - (ops + 1) < limits.maxOps - ops := by omega
    exact Prod.Lex.right _ hless
  | @call depth ops h =>
    have hless : limits.maxDepth - (depth + 1) < limits.maxDepth - depth := by omega
    exact Prod.Lex.left _ _ hless

theorem allows_of_follows {after before : Activation} (h : limits.Follows after before)
    (ha : limits.Allows before) : limits.Allows after := by
  obtain ⟨hd, ho⟩ := ha
  cases h with
  | next h => exact ⟨hd, h⟩
  | call h => exact ⟨h, Nat.zero_le _⟩

end Limits

namespace Engine

variable {δ τ : Type} (engine : Engine δ τ)

section Round

variable (self other : Activation → Nat → Nat → MachineM δ τ Outcome)

/-- The place of a run at a depth, where runs inside it are `self` anew. -/
def place (depth : Nat) : Nesting δ τ where
  depth := depth
  inner :=
    if engine.limits.maxDepth ≤ depth then none
    else some fun target =>
      if target = 0 then return .ok { start := target, cursor := 0, ops := 0, exit := .noScript }
      else self { depth := depth + 1, ops := 0 } target target

/-- One round of a run that began at `start` and is at `cursor`; what comes behind it is
`self` again. -/
def round (activation : Activation) (start cursor : Nat) : MachineM δ τ Outcome :=
  if engine.image.length ≤ cursor then do
    engine.note activation.depth (.pastEnd start cursor)
    return .ok { start, cursor, ops := activation.ops, exit := .truncated }
  else if engine.limits.maxOps ≤ activation.ops then do
    engine.note activation.depth (.runaway start activation.ops cursor)
    return .ok { start, cursor, ops := activation.ops, exit := .runaway }
  else do
    let next ← engine.step (engine.place self activation.depth) cursor
    engine.proceed activation.depth start cursor (activation.ops + 1)
      (self { activation with ops := activation.ops + 1 } start) next

variable {self other}

theorem round_congr {activation : Activation}
    (h : ∀ next, engine.limits.Follows next activation → self next = other next)
    (start cursor : Nat) :
    engine.round self activation start cursor = engine.round other activation start cursor := by
  have hplace : engine.place self activation.depth = engine.place other activation.depth := by
    unfold place
    by_cases hd : engine.limits.maxDepth ≤ activation.depth
    · rw [if_pos hd, if_pos hd]
    · have hc := h _ (.call (Nat.lt_of_not_le hd))
      rw [if_neg hd, if_neg hd, hc]
  unfold round
  rw [hplace]
  by_cases ho : engine.limits.maxOps ≤ activation.ops
  · rw [if_pos ho, if_pos ho]
  · have hn := h _ (.next (Nat.lt_of_not_le ho))
    rw [if_neg ho, if_neg ho, hn]

end Round

def underWay (activation : Activation) (start cursor : Nat) : MachineM δ τ Outcome :=
  engine.walk (engine.nesting (engine.limits.maxDepth - activation.depth)) start
    (engine.limits.maxOps - activation.ops) cursor

theorem place_underWay {depth : Nat} (h : depth ≤ engine.limits.maxDepth) :
    engine.place engine.underWay depth = engine.nesting (engine.limits.maxDepth - depth) := by
  unfold place
  cases hr : engine.limits.maxDepth - depth with
  | zero =>
    have hd : depth = engine.limits.maxDepth := by omega
    rw [if_pos (Nat.le_of_eq hd.symm), hd]
    rfl
  | succ room =>
    have hd : depth = engine.limits.maxDepth - (room + 1) := by omega
    have hroom : engine.limits.maxDepth - (depth + 1) = room := by omega
    rw [if_neg (by omega)]
    simp only [nesting, ← hd]
    congr
    funext target
    simp only [underWay, hroom, runAt, Nat.sub_zero]

theorem underWay_eq_round {activation : Activation} (h : engine.limits.Allows activation)
    (start cursor : Nat) : engine.underWay activation start cursor =
      engine.round engine.underWay activation start cursor := by
  obtain ⟨depth, ops⟩ := activation
  have hd : depth ≤ engine.limits.maxDepth := h.1
  have ho : ops ≤ engine.limits.maxOps := h.2
  have hdepth : (engine.nesting (engine.limits.maxDepth - depth)).depth = depth := by
    rw [depth_nesting]
    omega
  have hops : engine.limits.maxOps - (engine.limits.maxOps - ops) = ops := by omega
  unfold round
  rw [engine.place_underWay hd]
  unfold underWay
  rcases Nat.lt_or_ge cursor engine.image.length with hlt | hle
  · rw [if_neg (Nat.not_le.mpr hlt)]
    cases hl : engine.limits.maxOps - ops with
    | zero =>
      have hall : engine.limits.maxOps = ops := by omega
      funext machine
      rw [walk_zero engine _ machine _ _ hlt, hdepth, hall, if_pos (Nat.le_refl _)]
      rfl
    | succ left =>
      have hleft : engine.limits.maxOps - (ops + 1) = left := by omega
      have htaken : engine.limits.maxOps - (left + 1) = ops := by omega
      have hopen : ¬engine.limits.maxOps ≤ ops := by omega
      rw [walk_succ engine _ _ _ _ hlt, hdepth, htaken, if_neg hopen, hleft]
  · rw [if_pos hle]
    funext machine
    rw [walk_of_le engine _ machine _ _ _ hle, hdepth, hops]
    rfl

def Solves (run : Activation → Nat → Nat → MachineM δ τ Outcome) : Prop :=
  ∀ activation, engine.limits.Allows activation → ∀ start cursor,
    run activation start cursor = engine.round run activation start cursor

theorem eq_underWay {run : Activation → Nat → Nat → MachineM δ τ Outcome}
    (h : engine.Solves run) {activation : Activation} (ha : engine.limits.Allows activation) :
    run activation = engine.underWay activation := by
  -- the equation asks for the run only at what can follow
  induction activation using engine.limits.follows_wellFounded.induction with
  | _ activation ih =>
    funext start cursor
    rw [h activation ha, engine.underWay_eq_round ha]
    exact engine.round_congr (fun next hn => ih next hn (engine.limits.allows_of_follows hn ha))
      start cursor

theorem runScript_eq_underWay {start : Nat} (h : start ≠ 0) (machine : Machine δ τ) :
    engine.runScript start machine =
      engine.underWay { depth := 0, ops := 0 } start start (engine.begun machine start) := by
  rw [runScript_apply, runAt, if_neg h]
  rfl

end Engine

end RomScript
