import RomScript.Proofs.Device.Replay
import RomScript.Proofs.Engine.Lockstep

/-!
# Limits

The limits of an engine only guard its runs. A run in which no limit is met, at whatever depth, is
the same under wider limits. If the only limit that is met is the number of instructions of the
outermost run, then under wider limits the run goes on from where it was given up. A nested run
that is given up, or refused, is no end of the run around it, so nothing is said of such runs.
-/

set_option autoImplicit false

namespace RomScript

def Event.isRunaway : Event → Bool
  | .runaway .. => true
  | _ => false

def Event.isRefusal : Event → Bool
  | .failure _ _ (.recursionLimit _) => true
  | _ => false

/-- No call is refused, and no run but the outermost one is given up. -/
def Chronicle.Free (events : Chronicle) : Prop :=
  ∀ entry ∈ events, entry.2.isRefusal = false ∧ (entry.2.isRunaway = true → entry.1.depth = 0)

theorem Chronicle.free_append (events rest : Chronicle) :
    Chronicle.Free (events ++ rest) ↔ events.Free ∧ rest.Free :=
  List.forall_mem_append

def Refused {α : Type} (result : Except InstructionError α) : Prop :=
  ∃ limit, result = .error (.recursionLimit limit)

namespace Engine

variable {δ τ α β : Type} (engine : Engine δ τ)

abbrev under (limits : Limits) : Engine δ τ where
  image := engine.image
  facade := engine.facade
  observer := engine.observer
  limits := limits

/-- Of two ends of an action on the machine, the second one is the first one, unless a limit is met
on the way to the first one or the events shown there let it escape. -/
def Accords (escapes : Chronicle → Prop) (machine : Machine δ τ) (ended other : α × Machine δ τ) :
    Prop :=
  ∃ events : Chronicle, ended.2.notes = engine.observer.replay events machine.notes ∧
    (events.Free → other = ended ∨ escapes events)

/-- Unless a limit is met, the second action does what the first one does. -/
def Widens (action wide : MachineM δ τ α) : Prop :=
  ∀ machine, engine.Accords (fun _ => False) machine (action machine) (wide machine)

/-- The same of actions that can be refused, which is shown behind them only. -/
def WidensUnlessRefused (action wide : MachineM δ τ (Except InstructionError α)) : Prop :=
  ∀ machine, engine.Accords (fun _ => Refused (action machine).1) machine (action machine)
    (wide machine)

section Accords

variable {engine} {action wide : MachineM δ τ α} {next next' : α → MachineM δ τ β}

theorem Accords.mono {escapes weaker : Chronicle → Prop} {machine : Machine δ τ}
    {ended other : α × Machine δ τ} (h : engine.Accords escapes machine ended other)
    (hw : ∀ events, escapes events → weaker events) :
    engine.Accords weaker machine ended other := by
  obtain ⟨events, hnotes, hends⟩ := h
  exact ⟨events, hnotes, fun hfree => (hends hfree).imp_right (hw events)⟩

theorem accords_bind {first second whole : Chronicle → Prop} {machine : Machine δ τ}
    (ha : engine.Accords first machine (action machine) (wide machine))
    (hn : engine.Accords second (action machine).2
      (next (action machine).1 (action machine).2) (next' (action machine).1 (action machine).2))
    (hf : ∀ events rest, first events → whole (events ++ rest))
    (hs : ∀ events rest, wide machine = action machine → second rest → whole (events ++ rest)) :
    engine.Accords whole machine ((action >>= next) machine) ((wide >>= next') machine) := by
  obtain ⟨events, hnotes, hends⟩ := ha
  obtain ⟨rest, hnotes', hends'⟩ := hn
  refine ⟨events ++ rest, ?_, fun hfree => ?_⟩
  · rw [MachineM.bind_apply, hnotes', hnotes, Observer.replay_append]
  · obtain ⟨hevents, hrest⟩ := (Chronicle.free_append events rest).mp hfree
    rcases hends hevents with hsame | hescapes
    · rw [MachineM.bind_apply, MachineM.bind_apply, hsame]
      exact (hends' hrest).imp_right (hs events rest hsame)
    · exact .inr (hf events rest hescapes)

theorem widens_of_concur {depth : Nat} {observed : MachineM δ Unit α}
    (h : engine.Concur .silent depth action observed) : engine.Widens action action := by
  intro machine
  obtain ⟨value, events, last, -, ha, -⟩ := h machine.scene machine.notes ()
  have ha : action machine = (value, last.noted (engine.observer.replay events machine.notes)) := ha
  exact ⟨events, congrArg (·.2.notes) ha, fun _ => .inl rfl⟩

theorem widens_of_notes (h : ∀ machine, (action machine).2.notes = machine.notes) :
    engine.Widens action action :=
  fun machine => ⟨[], h machine, fun _ => .inl rfl⟩

theorem widens_pure (value : α) : engine.Widens (pure value) (pure value) :=
  widens_of_notes fun _ => rfl

theorem widens_note (depth : Nat) (event : Event) :
    engine.Widens (engine.note depth event) (engine.note depth event) :=
  fun machine => ⟨[({ depth, execute := machine.state.execute }, event)], rfl, fun _ => .inl rfl⟩

theorem widens_bind (ha : engine.Widens action wide)
    (hn : ∀ value, engine.Widens (next value) (next' value)) :
    engine.Widens (action >>= next) (wide >>= next') :=
  fun machine => accords_bind (ha machine) (hn _ _) (fun _ _ h => h) fun _ _ _ h => h

theorem widens_note_then (depth : Nat) (event : Event) {rest rest' : MachineM δ τ α}
    (h : engine.Widens rest rest') :
    engine.Widens (engine.note depth event >>= fun _ => rest)
      (engine.note depth event >>= fun _ => rest') :=
  widens_bind (widens_note depth event) fun _ => h

variable {asked asked' : MachineM δ τ (Except InstructionError α)}

theorem Widens.unlessRefused (h : engine.Widens asked asked') :
    engine.WidensUnlessRefused asked asked' :=
  fun machine => (h machine).mono fun _ => False.elim

theorem unlessRefused_bind {rest rest' : Except InstructionError α →
      MachineM δ τ (Except InstructionError β)}
    (ha : engine.WidensUnlessRefused asked asked')
    (hn : ∀ result, engine.WidensUnlessRefused (rest result) (rest' result))
    (hr : ∀ limit machine, Refused (rest (.error (.recursionLimit limit)) machine).1) :
    engine.WidensUnlessRefused (asked >>= rest) (asked' >>= rest') := by
  intro machine
  apply accords_bind (ha machine) (hn _ _)
  · rintro events later ⟨limit, hlimit⟩
    rw [MachineM.bind_apply, hlimit]
    exact hr limit _
  · exact fun _ _ _ h => h

theorem unlessRefused_map (ha : engine.WidensUnlessRefused asked asked') (f : α → β) :
    engine.WidensUnlessRefused (asked >>= fun result => pure (result.map f))
      (asked' >>= fun result => pure (result.map f)) := by
  apply unlessRefused_bind ha
  · exact fun result => (widens_pure _).unlessRefused
  · exact fun limit _ => ⟨limit, rfl⟩

theorem unlessRefused_whileRepeating (ha : engine.WidensUnlessRefused asked asked') :
    engine.WidensUnlessRefused (MachineM.whileRepeating asked)
      (MachineM.whileRepeating asked') := by
  intro machine
  let repeating := (MachineM.setRepeating true machine).2
  have hpasses (passes : MachineM δ τ (Except InstructionError α)) :
      MachineM.whileRepeating passes machine = ((passes repeating).1,
        (MachineM.setRepeating machine.state.repeating (passes repeating).2).2) := rfl
  obtain ⟨events, hnotes, hends⟩ := ha repeating
  refine ⟨events, hnotes, fun hfree => (hends hfree).imp_left fun hsame => ?_⟩
  rw [hpasses, hpasses, hsame]

/-- Behind an action that can be refused a refusal is shown, so nothing is said any more of what
the second action does. -/
theorem widens_bind_refusal {rest rest' : Except InstructionError α → MachineM δ τ β}
    (ha : engine.WidensUnlessRefused asked asked')
    (hn : ∀ result, engine.Widens (rest result) (rest' result))
    (hr : ∀ limit other, engine.Widens (rest (.error (.recursionLimit limit))) other) :
    engine.Widens (asked >>= rest) (asked' >>= rest') := by
  intro machine
  by_cases hrefused : Refused (asked machine).1
  · obtain ⟨limit, hlimit⟩ := hrefused
    obtain ⟨events, hnotes, -⟩ := ha machine
    have hasked : engine.Accords (fun _ => False) machine (asked machine) (asked machine) :=
      ⟨events, hnotes, fun _ => .inl rfl⟩
    have hshown := hr limit (fun _ => (asked' >>= rest') machine) (asked machine).2
    rw [← hlimit] at hshown
    have hall : engine.Accords (fun _ => False) machine ((asked >>= rest) machine)
        ((asked >>= fun _ _ => (asked' >>= rest') machine) machine) :=
      accords_bind hasked hshown (fun _ _ h => h) fun _ _ _ h => h
    exact hall
  · exact accords_bind (ha machine) (hn _ _) (fun _ _ h => absurd h hrefused) fun _ _ _ h => h

end Accords

/-! ## Steps -/

section Steps

variable {engine} {wider : Limits} {depth : Nat}
  {inner inner' : Option (Nat → MachineM δ τ Outcome)}
  (hi : ∀ run, inner = some run →
    ∃ run', inner' = some run' ∧ ∀ target, engine.Widens (run target) (run' target))

variable (engine) in
theorem places_alone (depth : Nat) :
    (engine.concurrence (.silent : Observer Unit)).Places { depth, inner := none }
      { depth, inner := none } :=
  ⟨rfl, .none⟩

theorem widens_enclosed {run run' : MachineM δ τ α} (target : Nat) (h : engine.Widens run run') :
    engine.Widens (engine.enclosed depth target run)
      ((engine.under wider).enclosed depth target run') :=
  widens_note_then depth _ (widens_bind h fun value =>
    widens_note_then depth _ (widens_pure value))

include hi in
theorem unlessRefused_call (target : Nat) :
    engine.WidensUnlessRefused (engine.call { depth, inner } target)
      ((engine.under wider).call { depth, inner := inner' } target) := by
  cases hn : inner with
  | none =>
    rw [call_of_none engine rfl]
    exact fun machine => ⟨[], rfl, fun _ => .inr ⟨engine.limits.maxDepth, rfl⟩⟩
  | some run =>
    obtain ⟨run', hn', hrun⟩ := hi run hn
    rw [hn', call_of_inner engine rfl, call_of_inner (engine.under wider) rfl]
    refine (widens_bind (widens_enclosed target (hrun target)) fun outcome => ?_).unlessRefused
    cases outcome with
    | ok report => exact widens_pure _
    | error cause => exact widens_note_then depth _ (widens_pure _)

include hi in
theorem unlessRefused_callTimes (target times : Nat) :
    engine.WidensUnlessRefused (engine.callTimes { depth, inner } target times)
      ((engine.under wider).callTimes { depth, inner := inner' } target times) := by
  induction times with
  | zero => exact (widens_pure _).unlessRefused
  | succ times ih =>
    apply unlessRefused_bind (unlessRefused_call hi target)
    · intro result
      cases result with
      | error cause => exact (widens_pure _).unlessRefused
      | ok _ => exact ih
    · exact fun limit _ => ⟨limit, rfl⟩

include hi in
/-- Only the instructions that run others can be refused. -/
theorem unlessRefused_execute (offset length : Nat) (instruction : Instruction) :
    engine.WidensUnlessRefused (engine.execute { depth, inner } offset length instruction)
      ((engine.under wider).execute { depth, inner := inner' } offset length instruction) := by
  have halone := widens_of_concur ((engine.places_alone depth).execute offset length instruction)
  cases instruction with
  | control op =>
    cases op with
    | repeatBlock count =>
      exact unlessRefused_map
        (unlessRefused_whileRepeating (unlessRefused_callTimes hi (offset + length) _)) _
    | sub index =>
      simp only [execute, control]
      cases engine.image.scriptPointer index with
      | error cause => exact (widens_pure _).unlessRefused
      | ok target => exact unlessRefused_map (unlessRefused_call hi target.toNat) _
    | subDirect target => exact unlessRefused_map (unlessRefused_call hi target.toNat) _
    | _ => exact halone.unlessRefused
  | _ => exact halone.unlessRefused

theorem announce_refusal (offset : Nat) (opcode : Opcode) (before : Bool) (limit : Nat)
    (value : α) (other : MachineM δ τ α) :
    engine.Widens (engine.announce { depth, inner } offset opcode before
      (.error (.recursionLimit limit)) >>= fun _ => pure value) other := by
  intro machine
  let refusal : Event := .failure offset opcode (.recursionLimit limit)
  let noted := (engine.note depth refusal machine).2
  obtain ⟨events, hnotes, -⟩ := widens_of_concur
    ((engine.places_alone depth).announce offset opcode before (.ok .stop)) noted
  refine ⟨({ depth, execute := machine.state.execute }, refusal) :: events, hnotes, fun hfree => ?_⟩
  have hshown : refusal.isRefusal = false := (hfree _ List.mem_cons_self).1
  cases hshown

include hi in
theorem widens_runInstruction (offset length : Nat) (opcode : Opcode) (instruction : Instruction) :
    engine.Widens (engine.runInstruction { depth, inner } offset length opcode instruction)
      ((engine.under wider).runInstruction { depth, inner := inner' } offset length opcode
        instruction) := by
  apply widens_note_then depth
  apply widens_bind (widens_of_notes fun _ => rfl)
  intro before
  apply widens_bind_refusal (unlessRefused_execute hi offset length instruction)
  · intro result
    have hannounce := widens_of_concur
      ((engine.places_alone depth).announce offset opcode before.execute result)
    exact widens_bind hannounce fun _ => widens_pure _
  · exact fun limit other => announce_refusal offset opcode before.execute limit _ other

include hi in
theorem widens_stepKnown (offset length : Nat) (opcode : Opcode) :
    engine.Widens (engine.stepKnown { depth, inner } offset length opcode)
      ((engine.under wider).stepKnown { depth, inner := inner' } offset length opcode) := by
  apply widens_bind (widens_of_notes fun _ => rfl)
  intro state
  by_cases hs : !state.execute && !opcode.runsWhileSkipping
  · rw [if_pos hs, if_pos hs]
    exact widens_note_then depth _ (widens_pure _)
  · rw [if_neg hs, if_neg hs]
    simp only [under]
    cases Instruction.decode engine.image offset with
    | error cause => exact widens_note_then depth _ (widens_pure _)
    | ok instruction => exact widens_runInstruction hi offset length opcode instruction

include hi in
theorem widens_step (offset : Nat) :
    engine.Widens (engine.step { depth, inner } offset)
      ((engine.under wider).step { depth, inner := inner' } offset) := by
  apply widens_note_then depth
  simp only [under]
  cases engine.image.byte offset with
  | error cause => exact widens_pure _
  | ok id =>
    cases ho : Opcode.ofByte? id with
    | none =>
      simp only [ho]
      exact widens_note_then depth _ (widens_pure _)
    | some opcode =>
      simp only [ho]
      by_cases hl : opcode.legacyOnly && !engine.image.isLegacy
      · rw [if_pos hl, if_pos hl]
        exact widens_note_then depth _ (widens_pure _)
      · rw [if_neg hl, if_neg hl]
        cases opcode.encodedLength engine.image offset with
        | error cause => exact widens_pure _
        | ok length =>
          exact widens_bind (widens_stepKnown hi offset length opcode) fun _ => widens_pure _

end Steps

/-! ## Runs -/

/-- Unless another limit is met, the second action does what the first one does, or it goes on from
there because the first one was given up. -/
def Outlasts (depth : Nat) (action wide : MachineM δ τ α) : Prop :=
  ∀ machine, engine.Accords
    (fun events => (∃ entry ∈ events, entry.2.isRunaway = true ∧ entry.1.depth = depth) ∧
      ∃ rest, Passage engine.facade depth (action machine).2.scene rest (wide machine).2.scene)
    machine (action machine) (wide machine)

section Runs

variable {engine} {depth : Nat} {action wide : MachineM δ τ α} {next next' : α → MachineM δ τ β}

theorem Widens.outlasts (h : engine.Widens action wide) (depth : Nat) :
    engine.Outlasts depth action wide :=
  fun machine => (h machine).mono fun _ => False.elim

/-- Only the outermost run may be given up, so a nested one cannot go on from there. -/
theorem Outlasts.widens (h : engine.Outlasts depth action wide) (hd : depth ≠ 0) :
    engine.Widens action wide := by
  intro machine
  obtain ⟨events, hnotes, hends⟩ := h machine
  refine ⟨events, hnotes, fun hfree => .inl ((hends hfree).resolve_right ?_)⟩
  rintro ⟨⟨entry, hmem, hrunaway, hdepth⟩, -⟩
  exact hd (hdepth.symm.trans ((hfree entry hmem).2 hrunaway))

theorem outlasts_bind (ha : engine.Widens action wide)
    (hn : ∀ value, engine.Outlasts depth (next value) (next' value)) :
    engine.Outlasts depth (action >>= next) (wide >>= next') := by
  intro machine
  apply accords_bind (ha machine) (hn _ _) (fun _ _ => False.elim)
  rintro events rest hsame ⟨⟨entry, hmem, hrunaway⟩, hpassage⟩
  refine ⟨⟨entry, List.mem_append_right events hmem, hrunaway⟩, ?_⟩
  rw [MachineM.bind_apply, MachineM.bind_apply, hsame]
  exact hpassage

variable {wider : Limits} {inner inner' : Option (Nat → MachineM δ τ Outcome)}

theorem outlasts_proceed (start cursor ops : Nat) {go go' : Nat → MachineM δ τ Outcome}
    (hg : ∀ target, engine.Outlasts depth (go target) (go' target))
    (next : Except UnknownOpcode Step) :
    engine.Outlasts depth (engine.proceed depth start cursor ops go next)
      ((engine.under wider).proceed depth start cursor ops go' next) := by
  rcases next with cause | distance | _ | _
  · exact (widens_pure _).outlasts depth
  · simp only [proceed]
    cases advance? cursor distance with
    | some target => exact hg target
    | none => exact (widens_note_then depth _ (widens_pure _)).outlasts depth
  · exact (widens_pure _).outlasts depth
  · exact (widens_note_then depth _ (widens_pure _)).outlasts depth

variable {extra : Nat} (ho : wider.maxOps = engine.limits.maxOps + extra)
  (hi : ∀ run, inner = some run →
    ∃ run', inner' = some run' ∧ ∀ target, engine.Widens (run target) (run' target))
  (hp : ∀ start left cursor machine, ∃ rest, Passage engine.facade depth machine.scene rest
    ((engine.under wider).walk { depth, inner := inner' } start left cursor machine).2.scene)

include ho hi hp

omit hi hp in
theorem outlasts_past (start left : Nat) {cursor : Nat} (hle : engine.image.length ≤ cursor) :
    engine.Outlasts depth (engine.walk { depth, inner } start left cursor)
      ((engine.under wider).walk { depth, inner := inner' } start (left + extra) cursor) := by
  have hops : wider.maxOps - (left + extra) = engine.limits.maxOps - left := by omega
  intro machine
  rw [walk_of_le engine _ machine start left cursor hle,
    walk_of_le (engine.under wider) _ machine start (left + extra) cursor hle, hops]
  exact ⟨[({ depth, execute := machine.state.execute }, .pastEnd start cursor)], rfl,
    fun _ => .inl rfl⟩

theorem outlasts_walk (start left cursor : Nat) :
    engine.Outlasts depth (engine.walk { depth, inner } start left cursor)
      ((engine.under wider).walk { depth, inner := inner' } start (left + extra) cursor) := by
  induction left generalizing cursor with
  | zero =>
    rcases Nat.lt_or_ge cursor engine.image.length with hlt | hle
    · intro machine
      rw [walk_zero engine { depth, inner } machine start cursor hlt]
      let runaway : Moment × Event := ({ depth, execute := machine.state.execute },
        .runaway start engine.limits.maxOps cursor)
      exact ⟨[runaway], rfl, fun _ => .inr ⟨⟨runaway, List.mem_singleton_self _, rfl, rfl⟩,
        hp start (0 + extra) cursor machine⟩⟩
    · exact outlasts_past ho start 0 hle
  | succ left ih =>
    rcases Nat.lt_or_ge cursor engine.image.length with hlt | hle
    · have hleft : left + 1 + extra = left + extra + 1 := by omega
      have hops : wider.maxOps - (left + extra + 1) + 1 =
          engine.limits.maxOps - (left + 1) + 1 := by omega
      rw [hleft, walk_succ engine _ start left cursor hlt,
        walk_succ (engine.under wider) _ start (left + extra) cursor hlt, hops]
      exact outlasts_bind (widens_step hi cursor) (outlasts_proceed start cursor _ ih)
    · exact outlasts_past ho start (left + 1) hle

theorem outlasts_runAt (start : Nat) :
    engine.Outlasts depth (engine.runAt { depth, inner } start)
      ((engine.under wider).runAt { depth, inner := inner' } start) := by
  unfold runAt
  by_cases h : start = 0
  · rw [if_pos h, if_pos h]
    exact (widens_pure _).outlasts depth
  · rw [if_neg h, if_neg h, ho]
    exact outlasts_walk ho hi hp start engine.limits.maxOps start

end Runs

section Rooms

variable {wider : Limits} {extra spare : Nat} (ho : wider.maxOps = engine.limits.maxOps + extra)
  (hd : wider.maxDepth = engine.limits.maxDepth + spare)

theorem exists_passage_walk {room : Nat} (hr : room ≤ engine.limits.maxDepth)
    (start left cursor : Nat) (machine : Machine δ τ) :
    ∃ events, Passage engine.facade (engine.limits.maxDepth - room) machine.scene events
      (engine.walk (engine.nesting room) start left cursor machine).2.scene := by
  have hwalk := concur_walk (engine.matched_nesting (.silent : Observer Unit) hr) start left cursor
  obtain ⟨value, events, last, hpassage, hran, -⟩ := hwalk machine.scene machine.notes ()
  have hran : engine.walk (engine.nesting room) start left cursor machine = _ := hran
  rw [depth_nesting] at hpassage
  rw [hran]
  exact ⟨events, hpassage⟩

theorem nesting_eta (room : Nat) : engine.nesting room =
    { depth := engine.limits.maxDepth - room, inner := (engine.nesting room).inner } := by
  rw [← depth_nesting]

include hd

theorem under_nesting (room : Nat) : (engine.under wider).nesting (room + spare) =
    { depth := engine.limits.maxDepth - room,
      inner := ((engine.under wider).nesting (room + spare)).inner } := by
  have hdepth : wider.maxDepth - (room + spare) = engine.limits.maxDepth - room := by omega
  rw [← hdepth]
  exact (engine.under wider).nesting_eta (room + spare)

theorem exists_passage_under {room : Nat} (hr : room ≤ engine.limits.maxDepth)
    (start left cursor : Nat) (machine : Machine δ τ) :
    ∃ events, Passage engine.facade (engine.limits.maxDepth - room) machine.scene events
      ((engine.under wider).walk
        { depth := engine.limits.maxDepth - room,
          inner := ((engine.under wider).nesting (room + spare)).inner }
        start left cursor machine).2.scene := by
  have hdepth : wider.maxDepth - (room + spare) = engine.limits.maxDepth - room := by omega
  have hfits : room + spare ≤ wider.maxDepth := by omega
  have hpassage := (engine.under wider).exists_passage_walk hfits start left cursor machine
  rw [← engine.under_nesting hd room, ← hdepth]
  exact hpassage

include ho

theorem outlasts_nesting {room : Nat} (hr : room ≤ engine.limits.maxDepth) (start : Nat) :
    engine.Outlasts (engine.limits.maxDepth - room) (engine.runAt (engine.nesting room) start)
      ((engine.under wider).runAt ((engine.under wider).nesting (room + spare)) start) := by
  induction room generalizing start with
  | zero =>
    rw [nesting_eta, under_nesting engine hd]
    refine outlasts_runAt ho (fun run hrun => ?_) (engine.exists_passage_under hd hr) start
    cases hrun
  | succ room ih =>
    have hless : room ≤ engine.limits.maxDepth := by omega
    have hnested : engine.limits.maxDepth - room ≠ 0 := by omega
    have hinner : ((engine.under wider).nesting (room + 1 + spare)).inner = some fun target =>
        (engine.under wider).runAt ((engine.under wider).nesting (room + spare)) target := by
      rw [Nat.add_right_comm]
      rfl
    rw [nesting_eta, under_nesting engine hd]
    refine outlasts_runAt ho (fun run hrun => ?_) (engine.exists_passage_under hd hr) start
    cases hrun
    exact ⟨_, hinner, fun target => (ih hless target).widens hnested⟩

theorem outlasts_runScript (start : Nat) :
    engine.Outlasts 0 (engine.runScript start) ((engine.under wider).runScript start) := by
  have hrun := outlasts_nesting engine ho hd (Nat.le_refl _) start
  rw [Nat.sub_self, ← hd] at hrun
  apply outlasts_bind (widens_of_notes fun _ => rfl)
  intro _
  exact outlasts_bind (widens_note 0 _) fun _ => hrun

end Rooms

/-- The chronicle tells whether the run is the same, recorded or not, under wider limits. -/
theorem runScript_under {wider : Limits} (ho : engine.limits.maxOps ≤ wider.maxOps)
    (hd : engine.limits.maxDepth ≤ wider.maxDepth) (start : Nat) (machine : Machine δ τ)
    (hfree : (chronicle (engine.recorded.runScript start) machine).Free) :
    ((engine.under wider).runScript start machine = engine.runScript start machine ∧
        chronicle ((engine.under wider).recorded.runScript start) machine =
          chronicle (engine.recorded.runScript start) machine) ∨
      (∃ entry ∈ chronicle (engine.recorded.runScript start) machine,
          entry.2.isRunaway = true) ∧
        ∃ rest, Passage engine.facade 0 (engine.runScript start machine).2.scene rest
          ((engine.under wider).runScript start machine).2.scene := by
  obtain ⟨extra, ho⟩ := Nat.exists_eq_add_of_le ho
  obtain ⟨spare, hd⟩ := Nat.exists_eq_add_of_le hd
  let past : Machine δ (τ × Chronicle) := { machine with notes := (machine.notes, []) }
  obtain ⟨events, hnotes, hends⟩ := engine.recorded.outlasts_runScript ho hd start past
  have hevents : chronicle (engine.recorded.runScript start) machine = events :=
    engine.chronicle_of_notes hnotes
  rw [hevents] at hfree ⊢
  rw [engine.runScript_of_recorded, (engine.under wider).runScript_of_recorded]
  rcases hends hfree with hsame | ⟨⟨entry, hmem, hrunaway, -⟩, rest, hpassage⟩
  · have hsame : (engine.under wider).recorded.runScript start past =
        engine.recorded.runScript start past := hsame
    refine .inl ⟨?_, ?_⟩
    · simp only [past] at hsame
      rw [hsame]
    · rw [← hevents, chronicle, hsame]
      rfl
  · exact .inr ⟨⟨entry, hmem, hrunaway⟩, rest, hpassage⟩

/-- Wider limits change nothing of a run in which no limit is met. If the only limit that is met is
the number of instructions of the outermost run, the run asks the device under wider limits what
it asks under the narrow ones, and may then go on. -/
theorem limits_only_guard (image : Image) {limits wider : Limits}
    (ho : limits.maxOps ≤ wider.maxOps) (hd : limits.maxDepth ≤ wider.maxDepth) :
    (∀ {δ τ : Type} (facade : Facade δ) (observer : Observer τ) start (machine : Machine δ τ),
      let narrow : Engine δ τ := { image, facade, observer, limits }
      let wide : Engine δ τ := { image, facade, observer, limits := wider }
      let events := chronicle (narrow.recorded.runScript start) machine
      ((∀ entry ∈ events, entry.2.isRunaway = false ∧ entry.2.isRefusal = false) →
        wide.runScript start machine = narrow.runScript start machine ∧
          chronicle (wide.recorded.runScript start) machine = events) ∧
      (events.Free → ∃ requests, (wide.runScript start machine).2.bench.device =
        facade.issue requests (narrow.runScript start machine).2.bench.device)) ∧
    ∀ {τ : Type} (observer : Observer τ) start (machine : Machine SimulatedDevice τ),
      let narrow : Engine SimulatedDevice τ :=
        { image, facade := SimulatedDevice.facade, observer, limits }
      let wide : Engine SimulatedDevice τ :=
        { image, facade := SimulatedDevice.facade, observer, limits := wider }
      (chronicle (narrow.recorded.runScript start) machine).Free →
        (narrow.runScript start machine).2.bench.device.calls.toList <+:
          (wide.runScript start machine).2.bench.device.calls.toList := by
  have hissue {δ τ : Type} (narrow : Engine δ τ) (hl : narrow.limits = limits) (start : Nat)
      (machine : Machine δ τ)
      (hfree : (chronicle (narrow.recorded.runScript start) machine).Free) :
      ∃ requests, ((narrow.under wider).runScript start machine).2.bench.device =
        narrow.facade.issue requests (narrow.runScript start machine).2.bench.device := by
    subst hl
    rcases narrow.runScript_under ho hd start machine hfree with ⟨hsame, -⟩ | ⟨-, rest, hpassage⟩
    · rw [hsame]
      exact ⟨[], rfl⟩
    · exact hpassage.exists_issue
  constructor
  · intro δ τ facade observer start machine narrow wide events
    refine ⟨fun hnone => ?_, hissue narrow rfl start machine⟩
    have hfree : events.Free := by
      intro entry hmem
      obtain ⟨hrunaway, hrefusal⟩ := hnone entry hmem
      exact ⟨hrefusal, fun h => nomatch hrunaway.symm.trans h⟩
    refine (narrow.runScript_under ho hd start machine hfree).resolve_right ?_
    rintro ⟨⟨entry, hmem, hrunaway⟩, -⟩
    cases (hnone entry hmem).1.symm.trans hrunaway
  · intro τ observer start machine narrow wide hfree
    obtain ⟨requests, hdevice⟩ := hissue narrow rfl start machine hfree
    have hdevice : (wide.runScript start machine).2.bench.device = _ := hdevice
    have hcalls := SimulatedDevice.calls_issue requests
      (narrow.runScript start machine).2.bench.device
    rw [hdevice]
    exact ⟨_, hcalls.symm⟩

/-- A script that calls another one and ends is the same. One that writes a register and jumps
back to its start is given up behind one write or behind three. -/
theorem limits_only_guard_of_endless :
    let limits : Limits := { maxOps := 2, maxDepth := 1 }
    let wider : Limits := { maxOps := 5, maxDepth := 3 }
    let image : Image := .ofScript ⟨#[0, 0x7a, 4, 0, 0, 0, 9, 0, 0, 0, 0x5c, 1, 0,
      0x5b, 17, 0, 0x71, 0x71]⟩
    let narrow : Engine SimulatedDevice Unit :=
      { image, facade := SimulatedDevice.facade, observer := .silent, limits }
    let wide : Engine SimulatedDevice Unit :=
      { image, facade := SimulatedDevice.facade, observer := .silent, limits := wider }
    let machine : Machine SimulatedDevice Unit := .start .blank {} ()
    limits.maxOps ≤ wider.maxOps ∧ limits.maxDepth ≤ wider.maxDepth ∧
      (∀ entry ∈ chronicle (narrow.recorded.runScript 13) machine,
        entry.2.isRunaway = false ∧ entry.2.isRefusal = false) ∧
      wide.runScript 13 machine = narrow.runScript 13 machine ∧
      (chronicle (narrow.recorded.runScript 1) machine).Free ∧
      (narrow.runScript 1 machine).2.bench.device.calls.toList <+:
        (wide.runScript 1 machine).2.bench.device.calls.toList ∧
      (narrow.runScript 1 machine).2.bench.device.calls = #[.writeReg 4 9] ∧
      (wide.runScript 1 machine).2.bench.device.calls =
        #[.writeReg 4 9, .writeReg 4 9, .writeReg 4 9] := by
  intro limits wider image narrow wide machine
  have ho : limits.maxOps ≤ wider.maxOps := by decide
  have hd : limits.maxDepth ≤ wider.maxDepth := by decide
  have hnone : ∀ entry ∈ chronicle (narrow.recorded.runScript 13) machine,
      entry.2.isRunaway = false ∧ entry.2.isRefusal = false := by
    decide +kernel
  have hfree : (chronicle (narrow.recorded.runScript 1) machine).Free := by
    unfold Chronicle.Free
    decide +kernel
  obtain ⟨hruns, hcalls⟩ := limits_only_guard image ho hd
  have hsame := ((hruns SimulatedDevice.facade .silent 13 machine).1 hnone).1
  refine ⟨ho, hd, hnone, hsame, hfree, ?_, by decide +kernel, by decide +kernel⟩
  simp only [narrow, wide]
  exact hcalls (.silent : Observer Unit) 1 machine hfree

end Engine

end RomScript
