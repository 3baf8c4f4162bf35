import Kernelet.Proofs.Kernel.Ending
import Kernelet.Proofs.Kernel.FirstProcess
import Kernelet.Proofs.Kernel.Mirror

/-!
What a request to create, duplicate, replace, end or reap a process leaves behind when it is
refused. There are three ways to be refused (`Refusal`): before anything has happened but for
frames that were taken and given back, when the new process is turned away from the table, and
when it is turned away after a fork has marked the pages of the parent. In the last two a number
has been used up.

A kernel after any of these is a mirror of the kernel before, under the numbers that are put off
if one was used up. So all later answers are what they would have been (`traceless_of_boot`), as
long as no number that was put off comes round.
-/

namespace Kernelet.Kernel

variable {total reserved : Nat} {k after : Kernel} {request : Request} {e : KernelError}

/-- The request is to create, duplicate, replace, end or reap a process. -/
def Request.managesProcess : Request → Bool
  | .createInit | .spawn _ _ _ | .fork _ | .exec _ | .exit _ _ | .kill _ _ | .wait _ => true
  | _ => false

/-- What a refused request makes of kernel `k`. -/
inductive Refusal (k : Kernel) (request : Request) (e : KernelError) : Kernel → Prop
  /-- Nothing has happened but that frames were taken and given back. -/
  | early (pool : FramePool) (hpool : k.pool.Unchanged pool) :
      Refusal k request e { k with pool }
  /-- There was no place for the new process. -/
  | turnedAway (pool : FramePool) (haway : k.TurnsAway e) (hpool : k.pool.Unchanged pool) :
      Refusal k request e { k with sched := k.sched.allocatePid.2, pool }
  /-- There was no place for the child of a fork, and the pages of the parent are marked. -/
  | childless (parent : Pid) (task : Task) (space : AddressSpace) (table : PageTable)
      (pool : FramePool) (hrequest : request = .fork parent) (haway : k.TurnsAway e)
      (hfind : k.find? parent = some task)
      (hspace : task.space = some space) (htable : space.table.Marked table)
      (hcount : table.mappedCount = space.table.mappedCount) (hpool : k.pool.Unchanged pool) :
      Refusal k request e { k with
        sched := (k.sched.put { task with space := some { space with table } }).allocatePid.2
        pool }

theorem Refusal.refl (k : Kernel) (request : Request) (e : KernelError) :
    Refusal k request e k :=
  Refusal.early k.pool (FramePool.Unchanged.refl k.pool)

/-! ### The ways to be refused -/

theorem newImage_bytes (k : Kernel) (pages : Nat) {f : FrameId} (hbusy : k.pool.refCount f ≠ 0) :
    (k.newImage pages).state.pool.bytesOf f = k.pool.bytesOf f := by
  have hkept := (Memory.mk k.newSpace k.pool).mapPages_keepsBusy 0 .userData pages
  unfold newImage
  rcases hrun : (Memory.mk k.newSpace k.pool).mapPages 0 .userData pages with ⟨e | _, m⟩
  · rw [hrun] at hkept
    exact (FramePool.bytesOf_freeAll m.pool m.space.table.frames f).trans (hkept f hbusy).2
  · rw [hrun] at hkept
    exact (hkept f hbusy).2

/-- A task that is turned away leaves nothing but its number used up. -/
theorem enlist_of_error (h : k.sched.Proper) {task : Task} (hresult : k.enlisted task = .error e)
    (hpid : task.pid = k.sched.nextNumber) :
    k.TurnsAway e ∧
      k.enlist task = { k with sched := k.sched.allocatePid.2, pool := task.discard k.pool } := by
  rcases enlist_seats h hpid with ⟨slots, -, hdone, -⟩ | ⟨other, haway, hfailed, hrun⟩
  · rw [hdone] at hresult
    cases hresult
  · rw [hfailed] at hresult
    cases hresult
    exact ⟨haway, hrun⟩

theorem spawn_refusal (h : Fits total reserved k) {name : String} {parent : Pid} {pages : Nat}
    (hresult : (k.spawn name parent pages).result = .error e) :
    Refusal k request e (k.spawn name parent pages).state := by
  have hafter := spawn_fits h name parent pages
  have hbytes := fun f => newImage_bytes k pages (f := f)
  rcases spawn_cases k name parent pages with
    ⟨⟨e, hrun⟩, -⟩ | ⟨-, m, ⟨e, himage, hrun⟩ | ⟨himage, hrun⟩⟩
  · rw [hrun]
    exact Refusal.refl k request _
  · rw [himage] at hbytes
    rw [hrun] at hafter ⊢
    exact Refusal.early m.pool (h.balanced.backs.unchanged hafter.balanced.backs
      (List.Perm.refl _) hbytes)
  · have hproper : Scheduler.Proper { k with pool := m.pool }.sched := h.proper
    rw [himage] at hbytes
    rw [hrun] at hafter hresult ⊢
    obtain ⟨haway, hturned⟩ := enlist_of_error hproper hresult rfl
    dsimp only at hafter ⊢
    rw [hturned] at hafter ⊢
    refine Refusal.turnedAway _ (haway.of_paced (Paced.of_pool k m.pool))
      (h.balanced.backs.unchanged hafter.balanced.backs (List.Perm.refl _) ?_)
    intro f hbusy
    exact (Task.bytesOf_discard _ m.pool f).trans (hbytes f hbusy)

theorem createInit_refusal (h : Fits total reserved k)
    (hresult : k.createInit.result = .error e) : Refusal k request e k.createInit.state := by
  unfold createInit at hresult ⊢
  split at hresult
  · rw [if_pos (by assumption)]
    exact Refusal.refl k request e
  · rw [if_neg (by assumption)]
    exact spawn_refusal h hresult

/-- A fork is refused at once, or for want of a place once the pages are shared. -/
theorem fork_refusal (h : Fits total reserved k) {parent : Pid}
    (hresult : (k.fork parent).result = .error e) :
    Refusal k (.fork parent) e (k.fork parent).state := by
  have hafter := fork_fits h parent
  rcases fork_cases k parent with
    ⟨⟨e, hrun⟩, -⟩ | ⟨task, space, m, hfind, -, hspace, hfork⟩
  · rw [hrun]
    exact Refusal.refl k _ _
  · obtain ⟨pool, hrun, -, hbytes⟩ := Memory.fork_run (h.focus_space hfind hspace)
    rcases hfork with ⟨e, hfailed, -⟩ | ⟨child, hdone, hforked⟩
    · rw [hrun] at hfailed
      cases hfailed
    · rw [hrun] at hdone
      cases hdone
      have hlookup := space.table.lookup_shareFlags_entries
      have hmarked : space.table.Marked (space.table.shareFlags space.table.entries) :=
        PageTable.marked_of_lookup (space.table.maxPages_shareFlags _) hlookup
      have hproper : k.sched.Proper := h.proper
      have hnames := namedFrames_put hproper hfind hspace
        (PageTable.frames_perm_of_lookup_map PageEntry.frame_shared hlookup)
      have hsame : task.Paced { task with space := some { space with
          table := space.table.shareFlags space.table.entries } } := Task.Paced.of_pace_eq rfl
      have hpaced := Paced.put hproper pool hfind hsame
      rw [hforked] at hafter hresult ⊢
      obtain ⟨haway, hturned⟩ := enlist_of_error (hproper.put _) hresult rfl
      dsimp only at hafter ⊢
      rw [hturned] at hafter ⊢
      refine Refusal.childless parent task space _ _ rfl (haway.of_paced hpaced) hfind hspace
        hmarked (space.table.mappedCount_shareFlags _)
        (h.balanced.backs.unchanged hafter.balanced.backs hnames ?_)
      intro f hbusy
      exact (Task.bytesOf_discard _ pool f).trans (hbytes f)

/-- A request that is refused may have used a number up and marked pages, and nothing more. -/
theorem serve_refusal (h : Fits total reserved k) (hrequest : request.managesProcess = true)
    (hresult : (k.serve request).result = .error e) (he : e ≠ .wouldBlock) :
    Refusal k request e (k.serve request).state := by
  have hcommit : ∀ result : Except KernelError Kernel, (k.commit result).result = .error e →
      Refusal k request e (k.commit result).state := by
    intro result hresult
    cases result with
    | ok after => cases hresult
    | error e => exact Refusal.refl k request _
  cases request with
  | createInit => exact createInit_refusal h (error_of_map hresult)
  | spawn name parent pages => exact spawn_refusal h (error_of_map hresult)
  | fork parent => exact fork_refusal h (error_of_map hresult)
  | exec pid => exact hcommit _ hresult
  | exit pid code => exact hcommit _ hresult
  | kill pid signal => exact hcommit _ hresult
  | wait parent =>
      show Refusal k _ e (k.wait parent).state
      have hwait : (k.wait parent).result = .error e := error_of_map hresult
      rcases wait_cases k parent with
        ⟨-, child, -, -, hrun⟩ | ⟨⟨e, hrun, -⟩, -⟩ | ⟨-, -, -, hrun⟩
      · rw [hrun] at hwait
        cases hwait
      · rw [hrun]
        exact Refusal.refl k _ _
      · rw [hrun] at hwait
        cases hwait
        exact absurd rfl he
  | _ => cases hrequest

/-! ### What is left behind -/

/-- Whatever is asked of the other kernel, under renamed numbers, is answered as this one would
answer it, as long as new numbers go along with the renaming. -/
def AnswersAs (rename : Pid → Pid) (k other : Kernel) : Prop :=
  ∀ requests : List Request,
    InStep rename (other.serveAll (requests.map (Request.rename rename))).2 →
    (other.serveAll (requests.map (Request.rename rename))).1 =
      (k.serveAll requests).1.map (renameResult rename (Reply.rename rename))

/-- The slots are as they were, but that pages of the parent of a fork may have come to be
copy-on-write instead of writable. -/
inductive KeepsSlots (request : Request) (s after : Scheduler) : Prop
  | same (hslots : after.slots = s.slots)
  | marked (parent : Pid) (task : Task) (space : AddressSpace) (table : PageTable)
      (hrequest : request = .fork parent) (hfind : s.find? parent = some task)
      (hspace : task.space = some space) (htable : space.table.Marked table)
      (hcount : table.mappedCount = space.table.mappedCount)
      (hslots : after.slots = (s.put { task with space := some { space with table } }).slots)

/-- The kernel after a request that failed with error `e` is as it was. A number may have been
used up, if the table was full, or if numbers have come round and somebody has this one. Numbers
that are given out later are then one higher than they would have been, as long as they do not
come round, and apart from that all later answers are what they would have been. -/
structure Traceless (request : Request) (e : KernelError) (k after : Kernel) : Prop where
  slots : KeepsSlots request k.sched after.sched
  current_eq : after.sched.current = k.sched.current
  jiffies_eq : after.sched.jiffies = k.sched.jiffies
  contextSwitches_eq : after.sched.contextSwitches = k.sched.contextSwitches
  gate_eq : after.gate = k.gate
  config_eq : after.config = k.config
  total_eq : after.pool.total = k.pool.total
  freeCount_eq : after.pool.freeCount = k.pool.freeCount
  refCount_eq : ∀ f, after.pool.refCount f = k.pool.refCount f
  nextPid : after.sched.nextPid = k.sched.nextPid ∨
    (after.sched.nextPid = k.sched.nextPid + 1 ∧ (e = .processTableFull ∨
      (e = .alreadyExists k.sched.nextNumber ∧ ¬ k.NumbersFit)))
  later : AnswersAs (skip k.sched.nextPid (after.sched.nextPid - k.sched.nextPid)) k after

/-- What is known of the numbers in a kernel that serves requests. -/
structure Numbered (k : Kernel) : Prop where
  issued : k.sched.Issued
  started : none ∉ k.sched.slots → initPid < k.sched.nextPid

theorem Settled.numbered (h : Settled total reserved k) (hdispatched : Dispatched k)
    (hroomy : 0 < k.sched.capacity) : Numbered k where
  issued := by
    have hproper := hdispatched.proper
    refine ⟨hproper.pid_lt, ?_, ?_⟩
    · intro task hmem
      exact (h.ordered.ppid_lt task.kin (List.mem_map_of_mem hmem)).trans
        (hproper.pid_lt task hmem)
    · intro pid hcurrent
      obtain ⟨task, hmem, rfl, -⟩ := hdispatched.canRun pid hcurrent (by simp)
      exact hproper.pid_lt task hmem
  started := by
    intro hfull
    by_contra hnext
    exact hfull (none_mem_slots hdispatched.proper hroomy (Nat.le_of_not_lt hnext))

theorem answersAs_of_mirrors {rename : Pid → Pid} (hrename : Renaming rename)
    (hfits : Fits total reserved k) (hafter : Fits total reserved after)
    (h : k.Mirrors rename after) : AnswersAs rename k after :=
  fun _ hstep => (serveAll_mirrors hrename hfits hafter h hstep).1

/-- Where a number is passed over, something is to be shown only as long as numbers fit. -/
theorem answersAs_of_fit {first : Nat} (hafter : Fits total reserved after)
    (h : after.NumbersFit → AnswersAs (skip first 1) k after) :
    AnswersAs (skip first 1) k after := by
  intro requests hstep
  rcases hstep.of_serveAll hafter with hsame | hfit
  · have hpassed := hsame first
    simp [skip] at hpassed
  · exact h hfit requests hstep

/-- Who is turned away is told so for want of a slot, as long as no number has come round. -/
theorem TurnsAway.error_cases (h : k.TurnsAway e) :
    e = .processTableFull ∨
      (e = .alreadyExists k.sched.nextNumber ∧ ¬ k.NumbersFit) := by
  cases h with
  | full _ => exact Or.inl rfl
  | used _ hround => exact Or.inr ⟨rfl, hround⟩

/-- A kernel that has refused a request is a mirror of what it was. -/
theorem Refusal.traceless (hfits : Fits total reserved k) (hafter : Fits total reserved after)
    (hnumbered : k.NumbersFit → Numbered k) (h : Refusal k request e after) :
    Traceless request e k after := by
  cases h with
  | early pool hpool =>
      have hspares := Scheduler.spares_skip_zero k.sched k.sched.nextPid
      have hmirrors : Mirrors (skip k.sched.nextPid 0) k { k with pool } :=
        ⟨Scheduler.Mirrors.skip hspares hspares.slots_self, hpool, rfl⟩
      refine ⟨KeepsSlots.same rfl, rfl, rfl, rfl, rfl, rfl, hpool.total_eq, hpool.freeCount_eq,
        hpool.refCount_eq, Or.inl rfl, ?_⟩
      dsimp only
      rw [Nat.sub_self]
      exact answersAs_of_mirrors (renaming_skip (Or.inr rfl)) hfits hafter hmirrors
  | turnedAway pool haway hpool =>
      refine ⟨KeepsSlots.same rfl, rfl, rfl, rfl, rfl, rfl, hpool.total_eq, hpool.freeCount_eq,
        hpool.refCount_eq, Or.inr ⟨rfl, haway.error_cases⟩, ?_⟩
      show AnswersAs (skip _ (k.sched.nextPid + 1 - k.sched.nextPid)) _ _
      rw [Nat.add_sub_cancel_left]
      refine answersAs_of_fit hafter fun hfit => ?_
      have hbefore : k.NumbersFit := hfit.of_le (Nat.le_succ _)
      obtain ⟨hissued, hstarted⟩ := hnumbered hbefore
      have hfull := (haway.full_of_fit hbefore).2
      have hspares := hissued.spares 1
      exact answersAs_of_mirrors (renaming_skip (Or.inl (hstarted hfull))) hfits hafter
        ⟨Scheduler.Mirrors.skip hspares hspares.slots_self, hpool, rfl⟩
  | childless parent task space table pool hrequest haway hfind hspace htable hcount hpool =>
      have hmarked : Option.Rel AddressSpace.Marked task.space (some { space with table }) := by
        rw [hspace]
        exact Option.Rel.some ⟨rfl, htable⟩
      refine ⟨KeepsSlots.marked parent task space table hrequest hfind hspace htable hcount rfl,
        rfl, rfl, rfl, rfl, rfl, hpool.total_eq, hpool.freeCount_eq, hpool.refCount_eq,
        Or.inr ⟨rfl, haway.error_cases⟩, ?_⟩
      show AnswersAs (skip _ (k.sched.nextPid + 1 - k.sched.nextPid)) _ _
      rw [Nat.add_sub_cancel_left]
      refine answersAs_of_fit hafter fun hfit => ?_
      have hbefore : k.NumbersFit := hfit.of_le (Nat.le_succ _)
      obtain ⟨hissued, hstarted⟩ := hnumbered hbefore
      have hfull := (haway.full_of_fit hbefore).2
      have hspares := hissued.spares 1
      exact answersAs_of_mirrors (renaming_skip (Or.inl (hstarted hfull))) hfits hafter
        ⟨Scheduler.Mirrors.skip hspares (hspares.slots_put hfits.proper hfind hmarked), hpool, rfl⟩

theorem capacity_serveAll (h : Dispatched k) (requests : List Request) :
    (k.serveAll requests).2.sched.capacity = k.sched.capacity := by
  induction requests generalizing k with
  | nil => rfl
  | cons request rest ih =>
      exact (ih (serve_dispatched h request)).trans (serve_seating h request).capacity_eq

/-- A request to create, duplicate, replace, end or reap a process that fails leaves no trace,
wherever the token is. A wait that has to be repeated is not a failure in this sense: it marks
the parent. Numbers may have come round before the request: only later answers after a number
was used up rest on their not coming round. -/
theorem traceless_of_boot {config : Config} (hboot : boot config = .ok k)
    (requests : List Request) (gate : Gate) (hrequest : request.managesProcess = true)
    (hresult : (serve { (k.serveAll requests).2 with gate } request).result = .error e)
    (he : e ≠ .wouldBlock) :
    Traceless request e { (k.serveAll requests).2 with gate }
      (serve { (k.serveAll requests).2 with gate } request).state := by
  obtain ⟨hfault, rfl⟩ := boot_eq_ok_iff.mp hboot
  have hstart := ofConfig_dispatched config
  have hfits : Fits config.totalFrames config.reservedFrames
      { ((ofConfig config).serveAll requests).2 with gate } :=
    serveAll_invariant (Fits config.totalFrames config.reservedFrames)
      (fun _ request h => serve_fits h request) (ofConfig_fits hfault) requests
  have hroomy : 0 < ((ofConfig config).serveAll requests).2.sched.capacity := by
    rw [capacity_serveAll hstart requests]
    exact (ofConfig_founded hfault).roomy
  refine (serve_refusal hfits hrequest hresult he).traceless hfits (serve_fits hfits request) ?_
  intro hfit
  have hnumbered := ((ofConfig_settled hfault).serveAll hfit).numbered
    (serveAll_dispatched hstart requests) hroomy
  exact ⟨hnumbered.issued, hnumbered.started⟩

/-- A machine of six frames, four of which are behind the pages of the first process, which runs.
A child with three pages is given two of them before it is refused. -/
theorem traceless_spawn_out_of_memory :
    let config : Config := { Config.small with memorySize := UInt64.ofNat (6 * pageSize) }
    let done : List Request := [.createInit, .schedule]
    let k := ofConfig config
    let gate : Gate := { Gate.new with holder := some 1, running := some 1 }
    let now : Kernel := { (k.serveAll done).2 with gate }
    boot config = .ok k ∧ now.pool.freeCount = 2 ∧
      (now.serve (.spawn "a" 1 3)).result = .error .outOfMemory ∧
      Traceless (.spawn "a" 1 3) .outOfMemory now (now.serve (.spawn "a" 1 3)).state := by
  intro config done k gate now
  have hboot : boot config = .ok k := boot_eq_ok_iff.mpr ⟨by decide, rfl⟩
  have hrequest : (Request.spawn "a" 1 3).managesProcess = true := rfl
  have hresult : (now.serve (.spawn "a" 1 3)).result = .error .outOfMemory := by decide +kernel
  exact ⟨hboot, by decide +kernel, hresult,
    traceless_of_boot hboot done gate hrequest hresult (by simp)⟩

end Kernelet.Kernel
