import Kernelet.Kernel.Startup
import Kernelet.Proofs.Kernel.Reaping
import Kernelet.Proofs.Kernel.Seating
import Kernelet.Proofs.Kernel.Waiting

/-!
The first process, and whether it is created once. Number 1 goes to the first process
that is created at all, and that one never leaves the table (`Founded`), since it has
no parent to reap it, at least as long as no number comes round. So whoever looks and
creates in one go creates number 1 or nothing. A caller that has looked and then lets
another come first may create a second one: calls get number 1, and one of them at
most, exactly if nobody who has been cleared is overtaken (`initOnce_iff`).
-/

namespace Kernelet

namespace Kernel

/-- Once number 1 has been given out it is in the table, and until then there is
room for it. -/
structure Founded (k : Kernel) : Prop where
  dispatched : Dispatched k
  roomy : 0 < k.sched.capacity
  first : initPid < k.sched.nextPid → k.sched.contains initPid = true

variable {total reserved : Nat} {k : Kernel} {pid : Pid} {e : KernelError}

theorem contains_eq_true_iff {s : Scheduler} :
    s.contains pid = true ↔ ∃ task, s.find? pid = some task :=
  Option.isSome_iff_exists

/-- Whoever has the first number has no parent in the table. -/
theorem Settled.not_contains_ppid (h : Settled total reserved k) (hfit : k.NumbersFit)
    {child : Task} (hfind : k.find? initPid = some child) :
    k.sched.contains child.ppid = false := by
  have hkin : child.kin ∈ k.family :=
    List.mem_map_of_mem (Scheduler.mem_tasks_of_find? hfind)
  have hlt : child.ppid < child.pid := h.ordered.ppid_lt child.kin hkin
  have hzero : child.ppid = 0 := by
    rw [Scheduler.pid_of_find? hfind] at hlt
    exact Nat.lt_one_iff.mp hlt
  by_contra hthere
  rw [Bool.not_eq_false] at hthere
  obtain ⟨parent, hparent⟩ := contains_eq_true_iff.mp hthere
  have hpos := h.fits.proper.pid_pos hfit parent (Scheduler.mem_tasks_of_find? hparent)
  rw [Scheduler.pid_of_find? hparent, hzero] at hpos
  exact Nat.lt_irrefl 0 hpos

/-- Before the first number is given out the table is empty. -/
theorem none_mem_slots (hproper : k.sched.Proper) (hroomy : 0 < k.sched.capacity)
    (hnext : k.sched.nextPid ≤ initPid) : none ∈ k.sched.slots := by
  obtain ⟨slot, hslot⟩ := List.exists_mem_of_length_pos hroomy
  cases slot with
  | none => exact hslot
  | some task =>
      have hmem := Scheduler.mem_tasks_iff.mpr hslot
      have hfit : k.sched.NumbersFit := hnext.trans_lt (by decide)
      have hpos := hproper.pid_pos hfit task hmem
      have hlt := hproper.pid_lt task hmem
      exact absurd hpos (Nat.not_lt_of_le (Nat.lt_succ_iff.mp (Nat.lt_of_lt_of_le hlt hnext)))

theorem contains_of_place {s after : Scheduler} {task : Task}
    (hplace : Scheduler.place task s.slots = some after.slots) :
    after.contains task.pid = true := by
  have hmem : task ∈ after.tasks := Scheduler.mem_tasks_of_place hplace
  by_contra habsent
  have hnone : after.find? task.pid = none := by simpa [Scheduler.contains] using habsent
  exact Scheduler.find?_eq_none_iff.mp hnone task hmem rfl

/-- A request cannot have the first process reaped: it reaps nobody, or no number has
come round, and nobody is the parent of the first process. -/
inductive SparesInit (k : Kernel) (request : Request) : Prop
  | noReaper (hrequest : request.reaper? = none)
  | settled (total reserved : Nat) (h : Settled total reserved k) (hfit : k.NumbersFit)

/-- The first process stays in the table where nobody can reap it. -/
theorem contains_serve (h : k.sched.Proper) (hthere : k.sched.contains initPid = true)
    {request : Request} (hspares : k.SparesInit request) :
    (k.serve request).state.sched.contains initPid = true := by
  have hcourse := serve_course h request
  have hfate : (k.serve request).state.sched.fate? initPid ≠ none := by
    obtain ⟨task, hfind⟩ := contains_eq_true_iff.mp hthere
    have hbefore := Scheduler.fate?_of_find? hfind
    cases hcourse.fares initPid with
    | unchanged hsame =>
        rw [hsame, hbefore]
        exact Option.some_ne_none _
    | born _ _ _ hafter =>
        rw [hafter]
        exact Option.some_ne_none _
    | died _ _ _ _ hafter =>
        rw [hafter]
        exact Option.some_ne_none _
    | buried code hresult _ _ =>
        rw [hresult] at hcourse
        obtain ⟨child, hchild, -, hparent, hrequest, -⟩ := hcourse.of_reaped
        cases hspares with
        | noReaper hnone =>
            rw [hnone] at hrequest
            cases hrequest
        | settled total reserved hsettled hfit =>
            rw [hsettled.not_contains_ppid hfit hchild] at hparent
            cases hparent
  rw [Ne, Scheduler.fate?_eq_none_iff] at hfate
  exact contains_eq_true_iff.mpr (Option.ne_none_iff_exists'.mp hfate)

/-- The number that is next before number 1 has been given out is number 1. -/
theorem nextNumber_eq_initPid (h : k.sched.Proper) (hnext : k.sched.nextPid ≤ initPid) :
    k.sched.nextNumber = initPid := by
  have hone : k.sched.nextPid = initPid := Nat.le_antisymm hnext h.nextPid_pos
  unfold Scheduler.nextNumber
  rw [hone]
  rfl

theorem Founded.serve (h : Founded k) {request : Request} (hspares : k.SparesInit request) :
    Founded (k.serve request).state := by
  have hseating := serve_seating h.dispatched request
  refine ⟨serve_dispatched h.dispatched request, ?_, ?_⟩
  · rw [hseating.capacity_eq]
    exact h.roomy
  · intro hlater
    by_cases hfirst : initPid < k.sched.nextPid
    · exact contains_serve h.dispatched.proper (h.first hfirst) hspares
    · have hnext := Nat.le_of_not_lt hfirst
      cases hseating with
      | unchanged hpaced _ =>
          rw [hpaced.sched.nextPid_eq] at hlater
          exact absurd hlater hfirst
      | seated mid task _ _ hpid _ hplace _ _ _ =>
          have hinit : task.pid = initPid :=
            hpid.trans (nextNumber_eq_initPid h.dispatched.proper hnext)
          rw [← hinit]
          exact contains_of_place hplace
      | turnedAway _ _ _ _ haway _ _ _ _ =>
          have hfit : k.NumbersFit := hnext.trans_lt (by decide)
          exact absurd (none_mem_slots h.dispatched.proper h.roomy hnext)
            (haway.full_of_fit hfit).2

/-- A configuration without fault makes room for a task. -/
theorem maxTasks_pos {config : Config} (h : config.fault? = none) : 0 < config.maxTasks.toNat := by
  obtain ⟨-, -, -, -, hslots, -, -⟩ := Config.fault?_eq_none_iff.mp h
  exact Nat.pos_of_ne_zero hslots

theorem ofConfig_founded {config : Config} (h : config.fault? = none) :
    Founded (ofConfig config) where
  dispatched := ofConfig_dispatched config
  roomy := by
    unfold Scheduler.capacity ofConfig Scheduler.new
    rw [List.length_replicate]
    exact maxTasks_pos h
  first hlt := absurd hlt (Nat.lt_irrefl 1)

/-- A process that is spawned gets the next number, and nobody had it. -/
theorem nextNumber_of_spawn (h : k.sched.Proper) {name : String} {parent : Pid} {pages : Nat}
    (hrun : (k.spawn name parent pages).result = .ok pid) :
    pid = k.sched.nextNumber ∧ k.sched.fate? pid = none ∧
      (k.spawn name parent pages).state.sched.nextPid = k.sched.nextPid + 1 := by
  have hcourse := serve_course h (.spawn name parent pages)
  have hresult : (k.serve (.spawn name parent pages)).result = .ok (.created pid) :=
    congrArg (Except.map Reply.created) hrun
  rw [hresult] at hcourse
  exact hcourse.of_created

/-- What may be wrong with the creation of a process that has no parent, as long as no
number comes round. -/
inductive SpawnError : KernelError → Prop where
  | outOfMemory : SpawnError .outOfMemory
  | addressOutOfRange (a : VirtAddr) : SpawnError (.addressOutOfRange a)
  | processTableFull : SpawnError .processTableFull

theorem spawn_error (h : k.sched.Proper) {name : String} {pages : Nat}
    (hrun : (k.spawn name 0 pages).result = .error e) :
    SpawnError e ∨ (e = .alreadyExists k.sched.nextNumber ∧
      ¬ (k.spawn name 0 pages).state.NumbersFit) := by
  rcases spawn_cases k name 0 pages with
    ⟨-, hparent, -⟩ | ⟨-, m, ⟨e, himage, hspawn⟩ | ⟨-, hspawn⟩⟩
  · exact absurd rfl hparent
  · rw [hspawn] at hrun
    cases hrun
    left
    rcases newImage_error himage with rfl | ⟨a, rfl⟩
    · exact SpawnError.outOfMemory
    · exact SpawnError.addressOutOfRange a
  · rw [hspawn] at hrun ⊢
    have haway : TurnsAway { k with pool := m.pool } e :=
      enlisted_error (k := { k with pool := m.pool }) h rfl hrun
    cases haway with
    | full _ => exact Or.inl SpawnError.processTableFull
    | used _ hround => exact Or.inr ⟨rfl, fun hfit => hround (numbersFit_of_enlist hfit)⟩

end Kernel

namespace Startup

open Kernel

/-- Caller `i` was cleared when there was no first process. Now there is one, and the
caller is about to create another. -/
structure Overtaken (s : Startup) (i : Nat) : Prop where
  cleared : s.calls[i]? = some InitCall.cleared
  there : s.kernel.sched.contains initPid = true
  created : ∃ pid, (s.kernel.spawn "init" 0 initPages).result = .ok pid

/-- Calls create number 1, and one of them at most does. -/
structure InitOnce (s : Startup) : Prop where
  pid_eq : ∀ (i : Nat) pid, s.calls[i]? = some (InitCall.created pid) → pid = initPid
  once : ∀ (i j : Nat) pid other, s.calls[i]? = some (InitCall.created pid) →
    s.calls[j]? = some (InitCall.created other) → i = j

variable {total reserved : Nat} {s : Startup} {i j : Nat} {pid : Pid} {e : KernelError}

theorem run_concat (s : Startup) (moves : List Move) (m : Move) :
    s.run (moves ++ [m]) = (s.run moves).move m := by
  unfold run
  rw [List.foldl_append]
  rfl

/-- Only a caller that has been cleared creates anything. -/
theorem create_cases (s : Startup) (i : Nat) :
    (s.calls[i]? ≠ some InitCall.cleared ∧ s.create i = s) ∨
    (s.calls[i]? = some InitCall.cleared ∧
      let spawned := s.kernel.spawn "init" 0 initPages
      s.create i = ⟨spawned.state, s.calls.set i (.returned spawned.result)⟩) := by
  unfold create
  split
  · rename_i hcleared
    exact Or.inr ⟨hcleared, rfl⟩
  · rename_i hother
    exact Or.inl ⟨hother, rfl⟩

/-- The process in whose name a move reaps. -/
def Move.reaper? : Move → Option Pid
  | .serve request _ => request.reaper?
  | _ => none

/-- A move serves one request at most, and that reaps only if the move does. -/
theorem kernel_move (s : Startup) (m : Move) :
    (s.move m).kernel = s.kernel ∨
      ∃ request, (s.move m).kernel = (s.kernel.serve request).state ∧
        (m.reaper? = none → request.reaper? = none) := by
  cases m with
  | serve request _ => exact Or.inr ⟨request, rfl, id⟩
  | arrive => exact Or.inl rfl
  | create i =>
      show (s.create i).kernel = _ ∨ ∃ request, (s.create i).kernel = _ ∧ _
      rcases s.create_cases i with ⟨-, hrun⟩ | ⟨-, hrun⟩
      · rw [hrun]
        exact Or.inl rfl
      · rw [hrun]
        exact Or.inr ⟨.spawn "init" 0 initPages, rfl, fun _ => rfl⟩

theorem move_dispatched (h : Dispatched s.kernel) (m : Move) : Dispatched (s.move m).kernel := by
  rcases s.kernel_move m with hsame | ⟨request, hserved, -⟩
  · rw [hsame]
    exact h
  · rw [hserved]
    exact serve_dispatched h request

theorem nextPid_move (h : Dispatched s.kernel) (m : Move) :
    s.kernel.sched.nextPid ≤ (s.move m).kernel.sched.nextPid := by
  rcases s.kernel_move m with hsame | ⟨request, hserved, -⟩
  · rw [hsame]
  · rw [hserved]
    exact (serve_course h.proper request).nextPid_le

theorem nextPid_run (h : Dispatched s.kernel) (moves : List Move) :
    s.kernel.sched.nextPid ≤ (s.run moves).kernel.sched.nextPid := by
  induction moves generalizing s with
  | nil => exact Nat.le_refl _
  | cons m rest ih => exact (nextPid_move h m).trans (ih (move_dispatched h m))

theorem run_dispatched (h : Dispatched s.kernel) (moves : List Move) :
    Dispatched (s.run moves).kernel := by
  induction moves generalizing s with
  | nil => exact h
  | cons m rest ih => exact ih (move_dispatched h m)

/-- No move of the list can have the first process reaped: none of them reaps, or no
number comes round. -/
inductive SparesInit (s : Startup) (moves : List Move) : Prop
  | noReaper (hmoves : ∀ m ∈ moves, m.reaper? = none)
  | settled (total reserved : Nat) (h : Settled total reserved s.kernel)
      (hfit : (s.run moves).kernel.NumbersFit)

theorem SparesInit.head {m : Move} {rest : List Move} (hdispatched : Dispatched s.kernel)
    (h : s.SparesInit (m :: rest)) {request : Request}
    (hreaps : m.reaper? = none → request.reaper? = none) : s.kernel.SparesInit request := by
  cases h with
  | noReaper hmoves => exact .noReaper (hreaps (hmoves m List.mem_cons_self))
  | settled total reserved h hfit =>
      exact .settled total reserved h (hfit.of_le (nextPid_run hdispatched (m :: rest)))

theorem SparesInit.tail {m : Move} {rest : List Move} (hdispatched : Dispatched s.kernel)
    (h : s.SparesInit (m :: rest)) : (s.move m).SparesInit rest := by
  cases h with
  | noReaper hmoves => exact .noReaper fun other hmem => hmoves other (List.mem_cons_of_mem m hmem)
  | settled total reserved h hfit =>
      have hafter : (s.move m).kernel.NumbersFit :=
        hfit.of_le (nextPid_run (move_dispatched hdispatched m) rest)
      have hsettled : Settled total reserved (s.move m).kernel := by
        rcases s.kernel_move m with hsame | ⟨request, hserved, -⟩
        · rw [hsame]
          exact h
        · rw [hserved] at hafter ⊢
          exact h.serve hafter
      exact .settled total reserved hsettled hfit

theorem run_founded (h : Founded s.kernel) {moves : List Move} (hspares : s.SparesInit moves) :
    Founded (s.run moves).kernel := by
  induction moves generalizing s with
  | nil => exact h
  | cons m rest ih =>
      refine ih ?_ (hspares.tail h.dispatched)
      rcases s.kernel_move m with hsame | ⟨request, hserved, hreaps⟩
      · rw [hsame]
        exact h
      · rw [hserved]
        exact h.serve (hspares.head h.dispatched hreaps)

/-- What spares the first process spares it in the first part of the run. -/
theorem SparesInit.of_prefix {done moves : List Move} (hdispatched : Dispatched s.kernel)
    (h : s.SparesInit moves) (hdone : done <+: moves) : s.SparesInit done := by
  cases h with
  | noReaper hmoves => exact .noReaper fun m hmem => hmoves m (hdone.subset hmem)
  | settled total reserved h hfit =>
      refine .settled total reserved h ?_
      obtain ⟨rest, rfl⟩ := hdone
      unfold run at hfit
      rw [List.foldl_append] at hfit
      exact hfit.of_le (nextPid_run (run_dispatched hdispatched done) rest)

/-- After a move a call is as it was, or it is new, or it had been cleared and has gone
on. -/
theorem calls_move {m : Move} {call : InitCall} (h : (s.move m).calls[i]? = some call) :
    s.calls[i]? = some call ∨
    (m = .arrive ∧ (call = .cleared ∨ call = .refused (.alreadyExists initPid))) ∨
    (m = .create i ∧ s.calls[i]? = some InitCall.cleared ∧
      call = .returned (s.kernel.spawn "init" 0 initPages).result) := by
  cases m with
  | serve request _ => exact Or.inl h
  | arrive =>
      have hcalls : s.arrive.calls[i]? = some call := h
      unfold arrive at hcalls
      rw [List.getElem?_append] at hcalls
      split at hcalls
      · exact Or.inl hcalls
      · right
        left
        refine ⟨rfl, ?_⟩
        have hnew := List.mem_singleton.mp (List.mem_of_getElem? hcalls)
        split at hnew
        · exact Or.inr hnew
        · exact Or.inl hnew
  | create j =>
      have hcalls : (s.create j).calls[i]? = some call := h
      rcases s.create_cases j with ⟨-, hrun⟩ | ⟨hcleared, hrun⟩
      · rw [hrun] at hcalls
        exact Or.inl hcalls
      · rw [hrun] at hcalls
        by_cases hsame : j = i
        · subst hsame
          have hlt := (List.getElem?_eq_some_iff.mp hcleared).1
          rw [List.getElem?_set_self hlt] at hcalls
          exact Or.inr (Or.inr ⟨rfl, hcleared, (Option.some.inj hcalls).symm⟩)
        · rw [List.getElem?_set_ne hsame] at hcalls
          exact Or.inl hcalls

theorem created_of_returned {result : Except KernelError Pid}
    (h : InitCall.created pid = .returned result) : result = .ok pid := by
  cases result with
  | ok other =>
      cases h
      rfl
  | error e => cases h

theorem refused_of_returned {result : Except KernelError Pid}
    (h : InitCall.refused e = .returned result) : result = .error e := by
  cases result with
  | ok other => cases h
  | error other =>
      cases h
      rfl

/-- A call that has returned stays as it is. -/
theorem created_move (h : s.calls[i]? = some (InitCall.created pid)) (m : Move) :
    (s.move m).calls[i]? = some (InitCall.created pid) := by
  cases m with
  | serve request _ => exact h
  | arrive =>
      have hlt := (List.getElem?_eq_some_iff.mp h).1
      show (s.calls ++ [_])[i]? = _
      rw [List.getElem?_append_left hlt]
      exact h
  | create j =>
      show (s.create j).calls[i]? = _
      rcases s.create_cases j with ⟨-, hrun⟩ | ⟨hcleared, hrun⟩
      · rw [hrun]
        exact h
      · have hne : j ≠ i := by
          rintro rfl
          rw [h] at hcleared
          cases hcleared
        rw [hrun, List.getElem?_set_ne hne]
        exact h

theorem created_run (h : s.calls[i]? = some (InitCall.created pid)) (moves : List Move) :
    (s.run moves).calls[i]? = some (InitCall.created pid) := by
  induction moves generalizing s with
  | nil => exact h
  | cons m rest ih => exact ih (created_move h m)

/-- Who is refused is told that the first process is there, or why none could be
created; after numbers have come round, that may be that somebody has the next one. -/
theorem refused_run (h : Dispatched s.kernel) (hnobody : s.calls = []) (moves : List Move)
    (hrefused : (s.run moves).calls[i]? = some (InitCall.refused e)) :
    e = .alreadyExists initPid ∨ SpawnError e ∨
      ∃ pid, e = .alreadyExists pid ∧ ¬ (s.run moves).kernel.NumbersFit := by
  induction moves using List.reverseRecOn with
  | nil =>
      have hcalls : s.calls[i]? = some (InitCall.refused e) := hrefused
      rw [hnobody] at hcalls
      cases hcalls
  | append_singleton moves m ih =>
      have hrun := run_dispatched h moves
      have hle := nextPid_move hrun m
      rw [run_concat] at hrefused ⊢
      rcases calls_move hrefused with hbefore | ⟨-, hnew | hnew⟩ | ⟨rfl, hcleared, hreturned⟩
      · rcases ih hbefore with hthere | hspawn | ⟨pid, hpid, hround⟩
        · exact Or.inl hthere
        · exact Or.inr (Or.inl hspawn)
        · exact Or.inr (Or.inr ⟨pid, hpid, fun hfit => hround (hfit.of_le hle)⟩)
      · cases hnew
      · cases hnew
        exact Or.inl rfl
      · right
        rcases spawn_error hrun.proper (refused_of_returned hreturned) with hspawn | ⟨hpid, hround⟩
        · exact Or.inl hspawn
        · refine Or.inr ⟨_, hpid, ?_⟩
          show ¬ ((s.run moves).create i).kernel.NumbersFit
          rcases (s.run moves).create_cases i with ⟨hother, -⟩ | ⟨-, hcreate⟩
          · exact absurd hcleared hother
          · rw [hcreate]
            exact hround

/-- A caller that creates a process and is not overtaken creates the first. -/
theorem first_of_not_overtaken (h : Founded s.kernel) (hnot : ¬ s.Overtaken i)
    (hcleared : s.calls[i]? = some InitCall.cleared)
    (hrun : (s.kernel.spawn "init" 0 initPages).result = .ok pid) :
    pid = initPid ∧ ¬ initPid < s.kernel.sched.nextPid := by
  have hfirst : ¬ initPid < s.kernel.sched.nextPid := by
    intro hlater
    exact hnot ⟨hcleared, h.first hlater, pid, hrun⟩
  refine ⟨?_, hfirst⟩
  rw [(nextNumber_of_spawn h.dispatched.proper hrun).1]
  exact nextNumber_eq_initPid h.dispatched.proper (Nat.le_of_not_lt hfirst)

/-- An overtaken caller creates another process than the first. -/
theorem pid_ne_of_overtaken (h : s.kernel.sched.Proper) (hovertaken : s.Overtaken i) :
    ∃ pid, (s.move (.create i)).calls[i]? = some (InitCall.created pid) ∧ pid ≠ initPid := by
  obtain ⟨hcleared, hthere, pid, hrun⟩ := hovertaken
  refine ⟨pid, ?_, ?_⟩
  · show (s.create i).calls[i]? = _
    rcases s.create_cases i with ⟨hother, -⟩ | ⟨-, hcreate⟩
    · exact absurd hcleared hother
    · have hlt := (List.getElem?_eq_some_iff.mp hcleared).1
      rw [hcreate, List.getElem?_set_self hlt, hrun]
      rfl
  · rintro rfl
    obtain ⟨task, hfind⟩ := contains_eq_true_iff.mp hthere
    have hfree := (nextNumber_of_spawn h hrun).2.1
    rw [Scheduler.fate?_of_find? hfind] at hfree
    cases hfree

/-- Calls keep to the law, and number 1 has been given out if one of them created it. -/
structure Orderly (s : Startup) : Prop where
  initOnce : s.InitOnce
  begun : ∀ (i : Nat) pid, s.calls[i]? = some (InitCall.created pid) →
    initPid < s.kernel.sched.nextPid

/-- A call that creates a process in this move gets the next number. -/
theorem create_of_cleared (h : s.kernel.sched.Proper)
    (hcleared : s.calls[i]? = some InitCall.cleared)
    (hrun : (s.kernel.spawn "init" 0 initPages).result = .ok pid) :
    (s.create i).kernel.sched.nextPid = s.kernel.sched.nextPid + 1 := by
  rcases s.create_cases i with ⟨hother, -⟩ | ⟨-, hcreate⟩
  · exact absurd hcleared hother
  · rw [hcreate]
    exact (nextNumber_of_spawn h hrun).2.2

theorem Orderly.move (h : s.Orderly) (hfounded : Founded s.kernel) {m : Move}
    (hnot : ∀ i, m = .create i → ¬ s.Overtaken i) : (s.move m).Orderly := by
  -- Who has created a process did so before, or does so in this move and is the first.
  have hcreated : ∀ (i : Nat) pid, (s.move m).calls[i]? = some (InitCall.created pid) →
      (s.calls[i]? = some (InitCall.created pid) ∧ initPid < s.kernel.sched.nextPid) ∨
      (m = .create i ∧ pid = initPid ∧ ¬ initPid < s.kernel.sched.nextPid ∧
        initPid < (s.move m).kernel.sched.nextPid) := by
    intro i pid hcall
    rcases calls_move hcall with hbefore | ⟨-, hnew | hnew⟩ | ⟨rfl, hcleared, hreturned⟩
    · exact Or.inl ⟨hbefore, h.begun i pid hbefore⟩
    · cases hnew
    · cases hnew
    · have hrun := created_of_returned hreturned
      obtain ⟨hpid, hfirst⟩ := first_of_not_overtaken hfounded (hnot i rfl) hcleared hrun
      refine Or.inr ⟨rfl, hpid, hfirst, ?_⟩
      show initPid < (s.create i).kernel.sched.nextPid
      rw [create_of_cleared hfounded.dispatched.proper hcleared hrun]
      exact Nat.lt_succ_of_le hfounded.dispatched.proper.nextPid_pos
  refine ⟨⟨?_, ?_⟩, ?_⟩
  · intro i pid hcall
    rcases hcreated i pid hcall with ⟨hbefore, -⟩ | ⟨-, hpid, -⟩
    · exact h.initOnce.pid_eq i pid hbefore
    · exact hpid
  · intro i j pid other hcall hother
    rcases hcreated i pid hcall with ⟨hbefore, hbegun⟩ | ⟨hnow, -, hfirst, -⟩
    · rcases hcreated j other hother with ⟨hearlier, -⟩ | ⟨-, -, hfirst, -⟩
      · exact h.initOnce.once i j pid other hbefore hearlier
      · exact absurd hbegun hfirst
    · rcases hcreated j other hother with ⟨-, hbegun⟩ | ⟨hagain, -⟩
      · exact absurd hbegun hfirst
      · exact Move.create.inj (hnow.symm.trans hagain)
  · intro i pid hcall
    rcases hcreated i pid hcall with ⟨-, hbegun⟩ | ⟨-, -, -, hlater⟩
    · exact Nat.lt_of_lt_of_le hbegun (nextPid_move hfounded.dispatched m)
    · exact hlater

/-- Whatever is asked of a kernel from its start on, as long as nobody is reaped or no
number comes round: a call for the first process that is refused is told that the
process is there, or why it could not be created. Calls create number 1, and one of
them at most does, exactly if nobody is overtaken between looking for the process and
creating it. -/
theorem initOnce_iff {config : Config} {k : Kernel} (hboot : boot config = .ok k)
    (moves : List Move)
    (hspares : (∀ m ∈ moves, m.reaper? = none) ∨ ((new k).run moves).kernel.NumbersFit) :
    (∀ (i : Nat) e, ((new k).run moves).calls[i]? = some (InitCall.refused e) →
      e = .alreadyExists initPid ∨ SpawnError e ∨
        ∃ pid, e = .alreadyExists pid ∧ ¬ ((new k).run moves).kernel.NumbersFit) ∧
    (((new k).run moves).InitOnce ↔
      ∀ done i, done ++ [.create i] <+: moves → ¬ ((new k).run done).Overtaken i) := by
  obtain ⟨hfault, rfl⟩ := boot_eq_ok_iff.mp hboot
  have hstart : Dispatched (new (ofConfig config)).kernel := ofConfig_dispatched config
  have hspared : (new (ofConfig config)).SparesInit moves :=
    hspares.elim SparesInit.noReaper (SparesInit.settled _ _ (ofConfig_settled hfault))
  have hfounded : ∀ done, done <+: moves → Founded ((new (ofConfig config)).run done).kernel :=
    fun done hprefix =>
      run_founded (ofConfig_founded hfault) (hspared.of_prefix hstart hprefix)
  refine ⟨fun i e hrefused => refused_run hstart rfl moves hrefused, ?_, ?_⟩
  · rintro honce done i ⟨rest, rfl⟩ hovertaken
    have hproper := (run_dispatched hstart done).proper
    obtain ⟨pid, hcall, hne⟩ := pid_ne_of_overtaken hproper hovertaken
    rw [← run_concat] at hcall
    have hlast := created_run hcall rest
    rw [show ((new (ofConfig config)).run (done ++ [.create i])).run rest =
      (new (ofConfig config)).run (done ++ [.create i] ++ rest) from
        (List.foldl_append ..).symm] at hlast
    exact hne (honce.pid_eq i pid hlast)
  · intro hnone
    have horderly : ∀ done, done <+: moves → ((new (ofConfig config)).run done).Orderly := by
      intro done
      induction done using List.reverseRecOn with
      | nil =>
          intro _
          have hnobody : ∀ (i : Nat) pid,
              (new (ofConfig config)).calls[i]? ≠ some (InitCall.created pid) := by
            intro i pid hcall
            cases hcall
          exact ⟨⟨fun i pid hcall => absurd hcall (hnobody i pid),
            fun i j pid other hcall => absurd hcall (hnobody i pid)⟩,
            fun i pid hcall => absurd hcall (hnobody i pid)⟩
      | append_singleton done m ih =>
          intro hprefix
          have hdone := (List.prefix_append done [m]).trans hprefix
          rw [run_concat]
          apply (ih hdone).move (hfounded done hdone)
          rintro i rfl
          exact hnone done i hprefix
    exact (horderly moves (List.prefix_refl moves)).initOnce

/-- The first caller creates the first process before the second looks, and the third
one looks when the process has terminated. -/
theorem initOnce_three_callers :
    let moves : List Move :=
      [.arrive, .create 0, .arrive, .serve (.exit 1 0) (by decide), .arrive, .create 2]
    boot Config.small = .ok (ofConfig Config.small) ∧
    ((new (ofConfig Config.small)).run moves).calls =
      [.created initPid, .refused (.alreadyExists initPid), .refused (.alreadyExists initPid)] ∧
    (∀ m ∈ moves, m.reaper? = none) ∧
    (∀ (i : Nat) e,
      ((new (ofConfig Config.small)).run moves).calls[i]? = some (InitCall.refused e) →
        e = .alreadyExists initPid ∨ SpawnError e ∨ ∃ pid, e = .alreadyExists pid ∧
          ¬ ((new (ofConfig Config.small)).run moves).kernel.NumbersFit) ∧
    (((new (ofConfig Config.small)).run moves).InitOnce ↔
      ∀ done i, done ++ [.create i] <+: moves →
        ¬ ((new (ofConfig Config.small)).run done).Overtaken i) := by
  have hboot : boot Config.small = .ok (ofConfig Config.small) :=
    boot_eq_ok_iff.mpr ⟨by decide, rfl⟩
  intro moves
  have hmoves : ∀ m ∈ moves, m.reaper? = none := by
    simp [moves, Move.reaper?, Request.reaper?]
  refine ⟨hboot, ?_, hmoves, initOnce_iff hboot moves (Or.inl hmoves)⟩
  decide +kernel

/-- Two callers look before either creates anything. Both succeed, and the second
first process has number 2. -/
theorem not_initOnce_of_two_cleared :
    let last := (new (ofConfig Config.small)).run [.arrive, .arrive, .create 0, .create 1]
    boot Config.small = .ok (ofConfig Config.small) ∧
      last.calls = [.created initPid, .created 2] ∧ ¬ last.InitOnce := by
  intro last
  have hcalls : last.calls = [.created initPid, .created 2] := by
    decide +kernel
  refine ⟨boot_eq_ok_iff.mpr ⟨by decide, rfl⟩, hcalls, ?_⟩
  intro honce
  have hpid := honce.pid_eq 1 2 (by rw [hcalls]; rfl)
  exact absurd hpid (by decide)

end Startup

end Kernelet
