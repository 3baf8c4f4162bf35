import Kernelet.Proofs.Body.Exclusion
import Kernelet.Proofs.Kernel.Asking

/-!
Bodies that are not let go. The gate lets only the selected process pass, and that one
lives. So a body that waits there for a process which has ended waits for as long as the
gate is open and no other process gets the number (`waits_on`). Whether it ever comes to
that depends on what is asked from outside and when bodies look: `Abandons` lists the two
moves by which a body is left so, and there are no others (`letsGo_iff`).
-/

namespace Kernelet

variable {ρ : Type}

namespace Kernel

variable {k after : Kernel} {request : Request} {pid : Pid} {code : Int}

/-- A request that is to end a live process ends it, perhaps after a signal. -/
theorem exit_of_ending (hlives : k.Lives pid) (hrequest : request.ending? = some (pid, code)) :
    ∃ mid : Kernel, mid.exit pid code = .ok (k.serve request).state ∧ mid.gate = k.gate ∧
      mid.current = k.current := by
  obtain ⟨task, hfind, hlive⟩ := hlives
  unfold Request.ending? at hrequest
  split at hrequest
  · cases hrequest
    have hrun := exit_of_find? hfind code
    rw [if_neg (by simp [hlive])] at hrun
    refine ⟨k, ?_, rfl, rfl⟩
    show k.exit pid code = .ok (k.commit (k.exit pid code)).state
    rw [hrun]
    rfl
  · cases hrequest
    cases hrun : k.kill pid .kill with
    | error e =>
        rw [kill_eq_error hrun] at hfind
        cases hfind
    | ok after =>
        have hafter : (k.serve (.kill pid .kill)).state = after := by
          show (k.commit (k.kill pid .kill)).state = after
          rw [hrun]
          rfl
        rw [hafter]
        obtain ⟨found, hfound, ⟨hdead, -⟩ | ⟨-, ⟨-, hexit⟩ | ⟨hother, -⟩ | ⟨hother, -⟩⟩⟩ :=
          kill_eq_ok hrun
        · cases hfind.symm.trans hfound
          rw [hlive] at hdead
          cases hdead
        · exact ⟨_, hexit, rfl, rfl⟩
        · cases hother
        · exact absurd rfl hother
  · cases hrequest

/-- To end a process that is not selected does not show at the gate. -/
theorem gate_of_ending (hlives : k.Lives pid) (hrequest : request.ending? = some (pid, code))
    (hother : k.current ≠ some pid) : (k.serve request).state.gate = k.gate := by
  obtain ⟨mid, hexit, hgate, hcurrent⟩ := exit_of_ending hlives hrequest
  obtain ⟨task, -, -, hrun⟩ := exit_eq_ok hexit
  rw [← hgate, hrun]
  unfold reselect
  rw [if_neg (show (mid.bury task code).current ≠ some pid from hcurrent ▸ hother)]
  rfl

/-- To end the selected process calls all who wait. -/
theorem calls_lt_of_ending (hlives : k.Lives pid)
    (hrequest : request.ending? = some (pid, code)) (hcurrent : k.current = some pid)
    (hopen : k.gate.closed = false) : k.gate.calls < (k.serve request).state.gate.calls := by
  obtain ⟨mid, hexit, hgate, hsame⟩ := exit_of_ending hlives hrequest
  obtain ⟨task, -, -, hrun⟩ := exit_eq_ok hexit
  rw [← hgate] at hopen ⊢
  rw [hrun]
  unfold reselect
  rw [if_pos (show (mid.bury task code).current = some pid from hsame.trans hcurrent)]
  show mid.gate.calls < (mid.gate.grant _).calls
  rw [Gate.calls_grant hopen]
  exact Nat.lt_succ_self _

/-- Only a live process passes the gate. -/
theorem lives_of_look_passed (h : Dispatched k) {gate : Gate}
    (hlook : k.gate.look pid = .passed gate) : k.Lives pid := by
  obtain ⟨hopen, hholder, -⟩ := Gate.look_eq_passed_iff.mp hlook
  have hcurrent : k.current = some pid := (h.holder_eq hopen).symm.trans hholder
  obtain ⟨task, hmem, hpid, hruns⟩ := h.canRun pid hcurrent (by simp)
  obtain ⟨hstate, -⟩ := Task.isRunnable_iff.mp hruns
  refine ⟨task, (Scheduler.find?_eq_some_iff h.proper).mpr ⟨hmem, hpid⟩, ?_⟩
  exact Task.isZombie_of_state (by simp [hstate])

theorem look_eq_wait (h : Dispatched k) (hopen : k.gate.closed = false) (hdead : ¬ k.Lives pid) :
    k.gate.look pid = .wait := by
  cases hlook : k.gate.look pid with
  | wait => rfl
  | passed gate => exact absurd (lives_of_look_passed h hlook) hdead
  | closed =>
      rw [Gate.look_eq_closed_iff.mp hlook] at hopen
      cases hopen

end Kernel

namespace World

open Kernel (Dispatched Over)

/-- Process `pid` was in the table at some time, and has terminated or left it since. -/
structure HasEnded (start : World ρ) (moves : List (Move ρ)) (pid : Pid) : Prop where
  entered : ∃ before, before <+: moves ∧ (start.run before).kernel.sched.contains pid = true
  ended : ¬ (start.run moves).kernel.Lives pid

/-- As long as the gate is open, no body is parked there for a process that has ended. -/
def LetsGo (start : World ρ) (moves : List (Move ρ)) : Prop :=
  (start.run moves).kernel.gate.closed = false →
    ∀ (i : Nat) (actor : Actor ρ), (start.run moves).actors[i]? = some actor →
      actor.point.isParked (start.run moves).kernel.gate = true → ¬ HasEnded start moves actor.pid

/-- A move after which a body is parked at the open gate for a process that has ended. -/
inductive Abandons (start : World ρ) (before : List (Move ρ)) : Move ρ → Prop where
  /-- From outside a process is ended that is not selected, and whose body is parked. -/
  | ended {i : Nat} {actor : Actor ρ} {request : Kernel.Request} {code : Int}
      (hopen : (start.run before).kernel.gate.closed = false)
      (hactor : (start.run before).actors[i]? = some actor)
      (hparked : actor.point.isParked (start.run before).kernel.gate = true)
      (hlives : (start.run before).kernel.Lives actor.pid)
      (hother : (start.run before).kernel.current ≠ some actor.pid)
      (hrequest : request.ending? = some (actor.pid, code)) :
      Abandons start before (.request request)
  /-- A body looks at the gate when its process has ended already. -/
  | looked {i : Nat} {actor : Actor ρ} {resume : Resume ρ} {seen : Option Nat}
      (hopen : (start.run before).kernel.gate.closed = false)
      (hactor : (start.run before).actors[i]? = some actor)
      (hpoint : actor.point = .turning resume seen)
      (hended : HasEnded start before actor.pid) : Abandons start before (.advance i)

variable {start world : World ρ} {m : Move ρ} {moves before : List (Move ρ)} {i : Nat}
  {actor next : Actor ρ} {pid : Pid}

/-! ### One move -/

theorem calls_move (world : World ρ) (m : Move ρ) :
    world.kernel.gate.calls ≤ (world.move m).kernel.gate.calls := by
  cases world.affects m with
  | inside hkernel => exact hkernel.sameTurn.calls_le
  | shut _ hkernel =>
      rw [hkernel]
      exact Nat.le_succ _
  | passed pid gate hlook hkernel =>
      obtain ⟨-, -, -, rfl⟩ := Gate.look_eq_passed_iff.mp hlook
      rw [hkernel]
  | left pid hkernel =>
      rw [hkernel]
      exact Gate.calls_le_release _ pid

/-- A gate that is open was open before. -/
theorem open_of_move (hopen : (world.move m).kernel.gate.closed = false) :
    world.kernel.gate.closed = false := by
  cases world.affects m with
  | shut _ hkernel =>
      rw [hkernel] at hopen
      cases hopen
  | inside hkernel => exact hkernel.sameTurn.closed_eq.symm.trans hopen
  | passed pid gate hlook _ => exact (Gate.look_eq_passed_iff.mp hlook).1
  | left pid hkernel =>
      rw [hkernel, Gate.closed_release] at hopen
      exact hopen

/-- Who has terminated by now had terminated before the last move, or lived. -/
theorem fate?_of_dead_move {code : Int} (h : Dispatched world.kernel)
    (hafter : (world.move m).kernel.sched.fate? pid = some (some code)) :
    world.kernel.sched.fate? pid = some (some code) ∨
      world.kernel.sched.fate? pid = some none := by
  cases world.affects m with
  | inside hkernel => exact hkernel.fate?_of_dead h hafter
  | shut _ hkernel =>
      rw [hkernel] at hafter
      exact Or.inl hafter
  | passed _ gate _ hkernel =>
      rw [hkernel] at hafter
      exact Or.inl hafter
  | left _ hkernel =>
      rw [hkernel] at hafter
      exact Or.inl hafter

/-- Whoever lives goes on living, unless it is ended from outside or by its own body. -/
theorem lives_move (h : Dispatched world.kernel) (hlives : world.kernel.Lives pid) :
    (world.move m).kernel.Lives pid ∨
      (∃ request code, m = .request request ∧ request.ending? = some (pid, code)) ∨
      ∃ i actor, m = .advance i ∧ world.actors[i]? = some actor ∧ actor.pid = pid := by
  rw [Kernel.lives_iff_fate?] at hlives ⊢
  cases m with
  | launch launched => exact Or.inl hlives
  | call i call => exact Or.inl hlives
  | stop i outcome => exact Or.inl hlives
  | request request =>
      cases (Kernel.serve_course h.proper request).fares pid with
      | unchanged hsame => exact Or.inl (hsame.trans hlives)
      | born _ _ _ hborn => exact Or.inl hborn
      | died code hrequest _ _ _ => exact Or.inr (Or.inl ⟨request, code, rfl, hrequest⟩)
      | buried code _ hbefore _ =>
          rw [hlives] at hbefore
          cases hbefore
  | advance i =>
      cases hactor : world.actors[i]? with
      | none =>
          rw [move_advance_none hactor]
          exact Or.inl hlives
      | some actor =>
          by_cases hself : actor.pid = pid
          · exact Or.inr (Or.inr ⟨i, actor, rfl, hactor, hself⟩)
          · left
            rw [move_advance hactor]
            cases actor.advances world.kernel with
            | passed resume seen gate _ _ hrun =>
                rw [hrun]
                exact hlives
            | left hkernel _ _ _ =>
                rw [hkernel]
                exact hlives
            | inside hkernel _ _ _ => exact hkernel.spares h (Ne.symm hself) hlives

/-- A look at the gate changes nobody's life. -/
theorem lives_of_turning {resume : Resume ρ} {seen : Option Nat}
    (hactor : world.actors[i]? = some actor) (hpoint : actor.point = .turning resume seen)
    (hlives : world.kernel.Lives pid) : (world.move (.advance i)).kernel.Lives pid := by
  rw [move_advance hactor]
  simp only [Actor.advance, Point.advance, hpoint]
  cases world.kernel.gate.look actor.pid with
  | wait => exact hlives
  | closed => exact hlives
  | passed gate => exact hlives

/-- A look at the gate that is in vain changes nothing but what the body has seen. -/
theorem move_of_wait {resume : Resume ρ} {seen : Option Nat}
    (hactor : world.actors[i]? = some actor) (hpoint : actor.point = .turning resume seen)
    (hwait : world.kernel.gate.look actor.pid = .wait) :
    world.move (.advance i) = ⟨world.kernel, world.actors.set i
      { actor with point := .turning resume (some world.kernel.gate.calls) }⟩ := by
  rw [move_advance hactor]
  simp [Actor.advance, Actor.executesNext, Point.advance, hpoint, hwait]

/-- A body that looks at the gate in vain has come there before. -/
theorem turning_of_advance {k : Kernel} {resume : Resume ρ} {seen : Nat}
    (h : (actor.advance k).2.point = .turning resume (some seen)) :
    ∃ earlier, actor.point = .turning resume earlier ∧ k.gate.look actor.pid = .wait ∧
      seen = k.gate.calls := by
  obtain ⟨pid, point, executing⟩ := actor
  cases point with
  | turning other earlier =>
      cases hlook : k.gate.look pid with
      | wait =>
          simp only [Actor.advance, Point.advance, hlook, Point.turning.injEq,
            Option.some.injEq] at h
          obtain ⟨rfl, rfl⟩ := h
          exact ⟨earlier, rfl, rfl, rfl⟩
      | closed =>
          simp only [Actor.advance, Point.advance, hlook] at h
          cases other <;> cases h
      | passed gate =>
          simp only [Actor.advance, Point.advance, hlook] at h
          cases other <;> cases h
  | entering call =>
      have hexecuting := (call.enter_own k pid).2
      have hturning : (call.enter k pid).2 = .turning resume (some seen) := h
      rw [hturning] at hexecuting
      cases hexecuting
  | exiting outcome =>
      simp only [Actor.advance, Point.advance] at h
      split at h <;> cases h
  | stopping outcome =>
      simp only [Actor.advance, Point.advance] at h
      split at h <;> cases h
  | leaving other => cases h
  | departing outcome => cases h
  | ready => cases h
  | returned result => cases h
  | ended outcome => cases h

/-- A body at the gate was not given anything to do. -/
theorem getElem?_of_modify_choose {j : Nat} {point : Point ρ} {resume : Resume ρ}
    {seen : Option Nat} (hexecuting : point.isExecuting = true)
    (hnext : (world.actors.modify j fun actor => actor.choose point)[i]? = some next)
    (hpoint : next.point = .turning resume seen) : world.actors[i]? = some next := by
  rw [List.getElem?_modify, Option.map_eq_map, Option.map_eq_some_iff] at hnext
  obtain ⟨actor, hactor, hchanged⟩ := hnext
  split at hchanged
  · unfold Actor.choose at hchanged
    split at hchanged
    · subst hchanged
      rw [show point = .turning resume seen from hpoint] at hexecuting
      cases hexecuting
    · rw [hactor, hchanged]
  · rw [hactor, hchanged]

/-- A body that stands at the gate and has looked stood there before, or has just looked
in vain. -/
theorem turning_cases {resume : Resume ρ} {seen : Nat}
    (hnext : (world.move m).actors[i]? = some next)
    (hpoint : next.point = .turning resume (some seen)) :
    world.actors[i]? = some next ∨
      ∃ actor earlier, m = .advance i ∧ world.actors[i]? = some actor ∧
        actor.point = .turning resume earlier ∧ actor.pid = next.pid ∧
        world.kernel.gate.look actor.pid = .wait ∧ seen = world.kernel.gate.calls := by
  cases m with
  | request request => exact Or.inl hnext
  | call j call => exact Or.inl (getElem?_of_modify_choose rfl hnext hpoint)
  | stop j outcome => exact Or.inl (getElem?_of_modify_choose rfl hnext hpoint)
  | launch launched =>
      simp only [move] at hnext
      rw [List.getElem?_append] at hnext
      split at hnext
      · exact Or.inl hnext
      · rw [List.mem_singleton.mp (List.mem_of_getElem? hnext)] at hpoint
        cases hpoint
  | advance j =>
      cases hactor : world.actors[j]? with
      | none =>
          rw [move_advance_none hactor] at hnext
          exact Or.inl hnext
      | some actor =>
          rw [move_advance hactor] at hnext
          rcases mem_set_cases hnext with ⟨rfl, rfl⟩ | ⟨-, hold⟩
          · obtain ⟨earlier, hearlier, hwait, hseen⟩ := turning_of_advance hpoint
            exact Or.inr ⟨actor, earlier, rfl, hactor, hearlier, rfl, hwait, hseen⟩
          · exact Or.inl hold

/-- While the gate is open and no number comes round, a body that waits there for a process
that has ended goes on waiting, however often it looks. -/
theorem waits_on {resume : Resume ρ} {seen : Option Nat} {executing : Bool}
    (h : Dispatched world.kernel) (hopen : world.kernel.gate.closed = false)
    (hover : Over world.kernel pid)
    (hactor : world.actors[i]? = some ⟨pid, .turning resume seen, executing⟩)
    (hmoves : .request .shutdown ∉ moves) (hfit : (world.run moves).kernel.NumbersFit) :
    ∃ last, (world.run moves).actors[i]? = some ⟨pid, .turning resume last, executing⟩ := by
  induction moves generalizing world seen with
  | nil => exact ⟨seen, hactor⟩
  | cons m rest ih =>
      rw [List.mem_cons, not_or] at hmoves
      have hstill : ∃ later, (world.move m).actors[i]? =
          some ⟨pid, .turning resume later, executing⟩ := by
        by_cases hm : m = .advance i
        · have hdead : ¬ world.kernel.Lives pid :=
            fun hlives => hover.ended (Kernel.lives_iff_fate?.mp hlives)
          have hwait := Kernel.look_eq_wait h hopen hdead
          rw [hm, move_of_wait hactor rfl hwait]
          exact ⟨_, List.getElem?_set_self (List.getElem?_eq_some_iff.mp hactor).1⟩
        · exact ⟨seen, getElem?_move hactor rfl hm⟩
      obtain ⟨later, hlater⟩ := hstill
      have hafter := move_dispatched m h
      exact ih hafter ((closed_move (Ne.symm hmoves.1)).trans hopen)
        (move_over h hover (hfit.of_le (nextPid_le_run hafter rest))) hlater hmoves.2 hfit

/-! ### All moves so far -/

theorem run_concat (start : World ρ) (before : List (Move ρ)) (m : Move ρ) :
    start.run (before ++ [m]) = (start.run before).move m := by
  simp [run, List.foldl_append]

theorem dispatched_run (h : Dispatched start.kernel) (moves : List (Move ρ)) :
    Dispatched (start.run moves).kernel :=
  run_invariant (fun world : World ρ => Dispatched world.kernel)
    (fun _ m hworld => move_dispatched m hworld) h moves

namespace HasEnded

/-- Whoever has ended has been created. -/
theorem is_over (h : HasEnded start moves pid) (hstart : Dispatched start.kernel) :
    Over (start.run moves).kernel pid := by
  obtain ⟨before, ⟨rest, rfl⟩, hthere⟩ := h.entered
  have hbefore := dispatched_run hstart before
  have hcreated : pid < (start.run before).kernel.sched.nextPid := by
    obtain ⟨task, hfind⟩ := Option.isSome_iff_exists.mp hthere
    exact Kernel.created_of_fate? hbefore.proper (Scheduler.fate?_of_find? hfind)
  have happend : start.run (before ++ rest) = (start.run before).run rest := by
    simp [run, List.foldl_append]
  refine ⟨?_, fun hlives => h.ended (Kernel.lives_iff_fate?.mpr hlives)⟩
  rw [happend]
  exact Nat.lt_of_lt_of_le hcreated (nextPid_le_run hbefore rest)

/-- Whoever has ended has still done so after a move that does not touch the kernel. -/
theorem concat (h : HasEnded start before pid)
    (hsame : ((start.run before).move m).kernel = (start.run before).kernel) :
    HasEnded start (before ++ [m]) pid := by
  obtain ⟨earlier, hprefix, hthere⟩ := h.entered
  refine ⟨⟨earlier, hprefix.trans (List.prefix_append _ _), hthere⟩, ?_⟩
  rw [run_concat, hsame]
  exact h.ended

/-- Whoever has ended by now had ended before the last move, or lived. -/
theorem or_lives (h : HasEnded start (before ++ [m]) pid) (hstart : Dispatched start.kernel) :
    HasEnded start before pid ∨ (start.run before).kernel.Lives pid := by
  by_cases hlives : (start.run before).kernel.Lives pid
  · exact Or.inr hlives
  · left
    refine ⟨?_, hlives⟩
    obtain ⟨earlier, hprefix, hthere⟩ := h.entered
    rcases List.prefix_concat_iff.mp hprefix with rfl | hearlier
    · -- It came in dead with the last move, or was there before.
      obtain ⟨task, hfind⟩ := Option.isSome_iff_exists.mp hthere
      have hfate := Scheduler.fate?_of_find? hfind
      have hended := h.ended
      rw [Kernel.lives_iff_fate?, hfate] at hended
      cases hcode : task.fate with
      | none => exact absurd (congrArg some hcode) hended
      | some code =>
          rw [hcode, run_concat] at hfate
          rcases fate?_of_dead_move (dispatched_run hstart before) hfate with hdead | hlive
          · obtain ⟨corpse, hcorpse, -⟩ := Option.map_eq_some_iff.mp hdead
            exact ⟨before, List.prefix_rfl, Option.isSome_iff_exists.mpr ⟨corpse, hcorpse⟩⟩
          · exact absurd (Kernel.lives_iff_fate?.mpr hlive) hlives
    · exact ⟨earlier, hearlier, hthere⟩

end HasEnded

/-- Nobody at the gate has seen more calls than were made. -/
def Heeded (world : World ρ) : Prop :=
  ∀ (i : Nat) (actor : Actor ρ) (resume : Resume ρ) (seen : Nat),
    world.actors[i]? = some actor → actor.point = .turning resume (some seen) →
      seen ≤ world.kernel.gate.calls

theorem heeded_new (k : Kernel) : Heeded (new k : World ρ) := by
  intro i actor resume seen hactor
  cases hactor

theorem Heeded.move (h : Heeded world) (m : Move ρ) : Heeded (world.move m) := by
  intro i next resume seen hnext hpoint
  have hcalls := world.calls_move m
  rcases turning_cases hnext hpoint with hold | ⟨actor, earlier, -, -, -, -, -, rfl⟩
  · exact Nat.le_trans (h i next resume seen hold hpoint) hcalls
  · exact hcalls

/-- A move that abandons a body leaves it parked. -/
theorem not_letsGo_of_abandons (h : Abandons start before m) (hstart : Dispatched start.kernel) :
    ¬ LetsGo start (before ++ [m]) := by
  have hbefore := dispatched_run hstart before
  intro hlets
  unfold LetsGo at hlets
  rw [run_concat] at hlets
  cases h with
  | @ended i actor request code hopen hactor hparked hlives hother hrequest =>
      have hgate := Kernel.gate_of_ending hlives hrequest hother
      obtain ⟨mid, hexit, -, -⟩ := Kernel.exit_of_ending hlives hrequest
      obtain ⟨-, -, hfate⟩ := Kernel.exit_fates hexit
      refine hlets ?_ i actor hactor ?_ ⟨⟨before, List.prefix_append _ _,
        Kernel.contains_of_lives hlives⟩, ?_⟩
      · exact (congrArg Gate.closed hgate).trans hopen
      · show actor.point.isParked ((start.run before).kernel.serve request).state.gate = true
        rw [hgate]
        exact hparked
      · rw [run_concat, Kernel.lives_iff_fate?]
        show ((start.run before).kernel.serve request).state.sched.fate? actor.pid ≠ _
        rw [hfate, if_pos rfl]
        simp
  | @looked i actor resume seen hopen hactor hpoint hended =>
      have hwait := Kernel.look_eq_wait hbefore hopen hended.ended
      have hmove := move_of_wait hactor hpoint hwait
      have hlater : HasEnded start (before ++ [.advance i]) actor.pid :=
        hended.concat (by rw [hmove])
      rw [hmove] at hlets
      refine hlets hopen i _ (List.getElem?_set_self (List.getElem?_eq_some_iff.mp hactor).1) ?_
        hlater
      simp [Point.isParked]

theorem Point.exists_of_isParked {gate : Gate} {point : Point ρ} (h : point.isParked gate = true) :
    ∃ resume seen, point = .turning resume (some seen) ∧ gate.calls ≤ seen := by
  cases point with
  | turning resume seen =>
      cases seen with
      | none => cases h
      | some seen => exact ⟨resume, seen, rfl, by simpa [Point.isParked] using h⟩
  | _ => cases h

/-- As long as no move abandons a body, each of them is let go. -/
theorem letsGo_concat (hlets : LetsGo start before) (hstart : Dispatched start.kernel)
    (horderly : Orderly (start.run before)) (hheeded : Heeded (start.run before))
    (hm : ¬ Abandons start before m) : LetsGo start (before ++ [m]) := by
  unfold LetsGo
  rw [run_concat]
  intro hafter i next hnext hparked hended
  have hopen := open_of_move hafter
  have hcalls := (start.run before).calls_move m
  obtain ⟨resume, seen, hpoint, hseen⟩ := Point.exists_of_isParked hparked
  rcases turning_cases hnext hpoint with
    hold | ⟨actor, earlier, rfl, hactor, hearlier, hpid, -, -⟩
  · have hbefore : next.point.isParked (start.run before).kernel.gate = true := by
      rw [hpoint]
      simpa [Point.isParked] using Nat.le_trans hcalls hseen
    rcases hended.or_lives hstart with hearly | hlives
    · exact hlets hopen i next hold hbefore hearly
    · have hdead := hended.ended
      rw [run_concat] at hdead
      rcases lives_move horderly.dispatched hlives (m := m) with
        hstill | ⟨request, code, rfl, hrequest⟩ | ⟨j, actor, rfl, hactor, hpid⟩
      · exact hdead hstill
      · apply hm
        refine Abandons.ended hopen hold hbefore hlives ?_ hrequest
        -- Had it been selected, its end would have called the body.
        intro hcurrent
        have hcalled := Kernel.calls_lt_of_ending hlives hrequest hcurrent hopen
        exact Nat.not_le_of_lt (Nat.lt_of_lt_of_le hcalled hseen)
          (hheeded i next resume seen hold hpoint)
      · -- A body that ends its own process is not at the gate.
        cases index_eq horderly.nodup hactor hold hpid
        exact hdead (lives_of_turning hold hpoint hlives)
  · apply hm
    refine Abandons.looked hopen hactor hearlier ?_
    rw [hpid]
    refine (hended.or_lives hstart).resolve_right fun hlives => hended.ended ?_
    rw [run_concat]
    exact lives_of_turning hactor hearlier hlives

/-- Every body whose process ends is let go, unless one of two moves abandons it. From
then on it waits until the gate is shut, as long as no number comes round. -/
theorem letsGo_iff {config : Config} {k : Kernel} (hboot : Kernel.boot config = .ok k)
    {moves : List (Move ρ)} (hlaunched : (moves.filterMap Move.launched?).Nodup) :
    ((∀ before, before <+: moves → LetsGo (new k) before) ↔
      ∀ before m, before ++ [m] <+: moves → ¬ Abandons (new k) before m) ∧
    ∀ (i : Nat) (actor : Actor ρ) (resume : Resume ρ) (seen : Option Nat),
      ((new k).run moves).actors[i]? = some actor → actor.point = .turning resume seen →
      HasEnded (new k) moves actor.pid → ((new k).run moves).kernel.gate.closed = false →
      ∀ more, .request .shutdown ∉ more →
        (((new k).run moves).run more).kernel.NumbersFit →
        ∃ last, (((new k).run moves).run more).actors[i]? =
          some { actor with point := .turning resume last } := by
  obtain ⟨-, rfl⟩ := Kernel.boot_eq_ok_iff.mp hboot
  have hstart := Kernel.ofConfig_dispatched config
  refine ⟨⟨?_, ?_⟩, ?_⟩
  · intro hall before m hprefix habandons
    exact not_letsGo_of_abandons habandons hstart (hall _ hprefix)
  · intro hnone before
    induction before using List.reverseRecOn with
    | nil =>
        intro _ _ i actor hactor
        cases hactor
    | append_singleton earlier m ih =>
        intro hprefix
        have hearlier := (List.prefix_append earlier [m]).trans hprefix
        have horderly : Orderly ((new (Kernel.ofConfig config)).run earlier) :=
          (Orderly.of_new hstart).run (hlaunched.sublist (hearlier.filterMap _).sublist)
        have hheeded := run_invariant Heeded (fun _ m hworld => hworld.move m)
          (heeded_new (Kernel.ofConfig config)) earlier
        exact letsGo_concat (ih hearlier) hstart horderly hheeded (hnone earlier m hprefix)
  · rintro i ⟨pid, point, executing⟩ resume seen hactor rfl hended hopen more hmore hfit
    exact waits_on (dispatched_run hstart moves) hopen (hended.is_over hstart) hactor hmore hfit

/-- The child of the first process has a body, which is parked when the child is ended
from outside. -/
def exitWhileParked : List (Move Unit) :=
  [.request .createInit, .request (.spawn "a" initPid 0), .request .schedule, .launch 2,
    .advance 0, .request (.exit 2 0)]

theorem hasEnded_exitWhileParked :
    HasEnded (new (Kernel.ofConfig Config.small)) exitWhileParked 2 := by
  have hfate : ((new (Kernel.ofConfig Config.small)).run exitWhileParked).kernel.sched.fate? 2 =
      some (some 0) := by decide +kernel
  refine ⟨⟨exitWhileParked.take 2, List.take_prefix 2 _, by decide +kernel⟩, ?_⟩
  rw [Kernel.lives_iff_fate?, hfate]
  simp

/-- The body is at the gate, and nothing has called it since it looked. -/
theorem parked_exitWhileParked :
    ∃ actor resume seen, ((new (Kernel.ofConfig Config.small)).run exitWhileParked).actors[0]? =
      some actor ∧ actor.pid = 2 ∧ actor.point = .turning resume (some seen) ∧
        actor.point.isParked
          ((new (Kernel.ofConfig Config.small)).run exitWhileParked).kernel.gate = true := by
  have hthere : (((new (Kernel.ofConfig Config.small)).run exitWhileParked).actors[0]?.map
      fun actor => (actor.pid, actor.point.isParked
        ((new (Kernel.ofConfig Config.small)).run exitWhileParked).kernel.gate)) =
      some (2, true) := by decide +kernel
  obtain ⟨actor, hactor, hparked⟩ := Option.map_eq_some_iff.mp hthere
  obtain ⟨hpid, hparked⟩ := Prod.mk.inj hparked
  obtain ⟨resume, seen, hpoint, -⟩ := Point.exists_of_isParked hparked
  exact ⟨actor, resume, seen, hactor, hpid, hpoint, hparked⟩

theorem not_letsGo_exitWhileParked :
    Kernel.boot Config.small = .ok (Kernel.ofConfig Config.small) ∧
    (exitWhileParked.filterMap Move.launched?).Nodup ∧
    ¬ LetsGo (new (Kernel.ofConfig Config.small)) exitWhileParked := by
  obtain ⟨actor, resume, seen, hactor, hpid, -, hparked⟩ := parked_exitWhileParked
  refine ⟨Kernel.boot_eq_ok_iff.mpr ⟨by decide, rfl⟩, by decide, ?_⟩
  intro hlets
  refine hlets (by decide +kernel) 0 actor hactor hparked ?_
  rw [hpid]
  exact hasEnded_exitWhileParked

/-- That body waits for as long as nobody shuts the gate and no number comes round. -/
theorem letsGo_iff_exitWhileParked :
    Kernel.boot Config.small = .ok (Kernel.ofConfig Config.small) ∧
    (exitWhileParked.filterMap Move.launched?).Nodup ∧
    let world := (new (Kernel.ofConfig Config.small)).run exitWhileParked
    ∃ (actor : Actor Unit) (resume : Resume Unit), actor.pid = 2 ∧
      ∀ more, .request .shutdown ∉ more → (world.run more).kernel.NumbersFit →
        ∃ last, (world.run more).actors[0]? =
          some { actor with point := .turning resume last } := by
  have hboot : Kernel.boot Config.small = .ok (Kernel.ofConfig Config.small) :=
    Kernel.boot_eq_ok_iff.mpr ⟨by decide, rfl⟩
  have hlaunched : (exitWhileParked.filterMap Move.launched?).Nodup := by decide
  obtain ⟨actor, resume, seen, hactor, hpid, hpoint, -⟩ := parked_exitWhileParked
  refine ⟨hboot, hlaunched, actor, resume, hpid, ?_⟩
  refine (letsGo_iff hboot hlaunched).2 0 actor resume (some seen) hactor hpoint ?_
    (by decide +kernel)
  rw [hpid]
  exact hasEnded_exitWhileParked

end World

end Kernelet
