import Kernelet.Process.Machine
import Kernelet.Process.Scheduler.Request
import Kernelet.Proofs.Memory.GivingBack
import Kernelet.Proofs.Process.Choice

/-!
The process table as slots. Requests come in any order and with any numbers, so nothing is known
of the numbers but that no two tasks share one (`Tabled`). Selecting, ticking, sleeping and
waking change tasks where they stand (`Stays`); a task that joins takes the lowest empty slot
(`place_eq_some_iff`), and one that leaves empties its own (`slots_remove`). So a slot names its
task until that task is removed, and every listing of the table is a walk over its slots
(`Lists`).
-/

namespace Kernelet

/-- The task later on: all of it but its state, its slice and its time is as it was. -/
def Task.Continues (task later : Task) : Prop :=
  later = { task with state := later.state, counter := later.counter, utime := later.utime }

namespace Task.Continues

variable {task later last : Task}

theorem refl (task : Task) : task.Continues task := rfl

theorem pid_eq (h : task.Continues later) : later.pid = task.pid := by
  rw [h]

theorem trans (h : task.Continues later) (hnext : later.Continues last) :
    task.Continues last := by
  unfold Continues at h hnext ⊢
  rw [hnext, h]

theorem refill (task : Task) : task.Continues task.refill := by
  rw [Scheduler.refill_eq]
  split
  · rfl
  · rfl

theorem wake (task : Task) : task.Continues task.wake := by
  unfold Task.wake
  split
  · rfl
  · rfl

theorem block {interruptible : Bool} (h : task.block interruptible = .ok later) :
    task.Continues later := by
  unfold Task.block at h
  split at h
  · cases h
    rfl
  · cases h

end Task.Continues

namespace Scheduler

variable {s mid after : Scheduler} {task : Task} {pid : Pid} {i : Nat}

/-! ### Tasks that stay in their slots -/

/-- Every slot holds what it held: nothing, or the task that was there. -/
def Stays (s after : Scheduler) : Prop :=
  List.Forall₂ (Option.Rel Task.Continues) s.slots after.slots

namespace Stays

theorem of_slots_eq (h : after.slots = s.slots) : Stays s after := by
  unfold Stays
  rw [h, List.forall₂_same]
  intro slot _
  cases slot with
  | none => exact .none
  | some task => exact .some (.refl task)

theorem trans (h : Stays s mid) (hnext : Stays mid after) : Stays s after := by
  unfold Stays at h hnext ⊢
  rw [List.forall₂_iff_get] at h hnext ⊢
  obtain ⟨hlength, hfirst⟩ := h
  obtain ⟨hlength', hlast⟩ := hnext
  refine ⟨hlength.trans hlength', fun i hi hi' => ?_⟩
  have hboth := hfirst i hi (hlength ▸ hi)
  have hafter := hlast i (hlength ▸ hi) hi'
  generalize s.slots.get ⟨i, hi⟩ = slot at hboth ⊢
  generalize mid.slots.get ⟨i, _⟩ = between at hboth hafter
  generalize after.slots.get ⟨i, hi'⟩ = last at hafter ⊢
  cases hboth with
  | none =>
      cases hafter
      exact .none
  | some hcontinues =>
      cases hafter with
      | some hnext => exact .some (hcontinues.trans hnext)

theorem mapTasks {change : Task → Task}
    (h : ∀ task ∈ s.tasks, task.Continues (change task)) : Stays s (s.mapTasks change) := by
  unfold Stays Scheduler.mapTasks
  rw [List.forall₂_map_right_iff, List.forall₂_same]
  intro slot hslot
  cases slot with
  | none => exact .none
  | some task => exact .some (h task (mem_tasks_iff.mpr hslot))

/-- To put a task back changes no other one, for no other one has its number. -/
theorem put (hnodup : (s.tasks.map Task.pid).Nodup) {new : Task} (hfind : s.find? pid = some task)
    (hcontinues : task.Continues new) : Stays s (s.put new) := by
  refine mapTasks fun other hmem => ?_
  split
  · rename_i hpid
    have hsame : other = task :=
      List.inj_on_of_nodup_map hnodup hmem (mem_tasks_of_find? hfind)
        (hpid.trans hcontinues.pid_eq)
    rw [hsame]
    exact hcontinues
  · exact .refl other

theorem schedule (s : Scheduler) : Stays s s.schedule.2 := by
  rcases s.schedule_cases with ⟨next, -, hrun⟩ | ⟨-, hrun⟩
  · rw [hrun]
    exact of_slots_eq rfl
  · have hdecay : Stays s s.decay := mapTasks fun task _ => .refill task
    rw [hrun]
    exact hdecay.trans (of_slots_eq rfl)

theorem length_eq (h : Stays s after) : after.slots.length = s.slots.length :=
  (List.Forall₂.length_eq h).symm

theorem pids_eq (h : Stays s after) : after.tasks.map Task.pid = s.tasks.map Task.pid := by
  have htasks : List.Forall₂ Task.Continues s.tasks after.tasks :=
    List.rel_filterMap (fun _ _ hslot => hslot) h
  generalize s.tasks = tasks at htasks
  generalize after.tasks = later at htasks
  induction htasks with
  | nil => rfl
  | cons hfirst _ ih => rw [List.map_cons, List.map_cons, hfirst.pid_eq, ih]

theorem exists_later (h : Stays s after) (hslot : s.slots[i]? = some (some task)) :
    ∃ later, after.slots[i]? = some (some later) ∧ task.Continues later := by
  obtain ⟨hi, hget⟩ := List.getElem?_eq_some_iff.mp hslot
  have hi' : i < after.slots.length := h.length_eq ▸ hi
  have hrel := (List.forall₂_iff_get.mp h).2 i hi hi'
  rw [List.get_eq_getElem, List.get_eq_getElem, hget] at hrel
  generalize hlast : after.slots[i] = last at hrel
  cases hrel with
  | @some _ later hcontinues =>
      exact ⟨later, List.getElem?_eq_some_iff.mpr ⟨hi', hlast⟩, hcontinues⟩

end Stays

/-! ### Joining -/

/-- Slot `i` is the first that is empty. -/
structure FirstEmpty (slots : List (Option Task)) (i : Nat) : Prop where
  empty : slots[i]? = some none
  below : ∀ j, j < i → slots[j]? ≠ some none

theorem FirstEmpty.cons {slots : List (Option Task)} (h : FirstEmpty slots i) (other : Task) :
    FirstEmpty (some other :: slots) (i + 1) where
  empty := h.empty
  below := by
    intro j hj
    cases j with
    | zero => simp
    | succ j => exact h.below j (Nat.lt_of_succ_lt_succ hj)

theorem exists_firstEmpty_of_place {slots placed : List (Option Task)}
    (h : place task slots = some placed) :
    ∃ i, FirstEmpty slots i ∧ placed = slots.set i (some task) := by
  induction slots generalizing placed with
  | nil => cases h
  | cons slot rest ih =>
      cases slot with
      | none =>
          cases h
          exact ⟨0, ⟨rfl, fun j hj => absurd hj (Nat.not_lt_zero j)⟩, rfl⟩
      | some other =>
          obtain ⟨tail, htail, rfl⟩ := Option.map_eq_some_iff.mp h
          obtain ⟨i, hfirst, rfl⟩ := ih htail
          exact ⟨i + 1, hfirst.cons other, rfl⟩

/-- The number is not in use. -/
def Unused (s : Scheduler) (pid : Pid) : Prop :=
  ∀ task ∈ s.tasks, task.pid ≠ pid

/-- What may come of adding a task. -/
inductive Adding (s : Scheduler) (task : Task) : Except KernelError Scheduler → Prop
  | taken (hused : ¬s.Unused task.pid) : Adding s task (.error (.alreadyExists task.pid))
  | full (hunused : s.Unused task.pid) (hfull : none ∉ s.slots) :
      Adding s task (.error .processTableFull)
  | placed (hunused : s.Unused task.pid) {i : Nat} (hfirst : FirstEmpty s.slots i) :
      Adding s task (.ok { s with slots := s.slots.set i (some task) })

theorem adding (s : Scheduler) (task : Task) : Adding s task (s.add task) := by
  by_cases hunused : s.Unused task.pid
  · rcases s.add_cases task with ⟨slots, hplace, hrun⟩ | ⟨hfull, hrun⟩ | ⟨hthere, -⟩
    · obtain ⟨i, hfirst, rfl⟩ := exists_firstEmpty_of_place hplace
      rw [hrun]
      exact .placed hunused hfirst
    · rw [hrun]
      exact .full hunused hfull
    · rw [contains, find?_eq_none_iff.mpr hunused] at hthere
      cases hthere
  · have hthere : s.contains task.pid = true := by
      rw [contains, Option.isSome_iff_ne_none]
      exact fun hnone => hunused (find?_eq_none_iff.mp hnone)
    rw [add, if_pos hthere]
    exact .taken hunused

theorem filter_of_ne (h : task.pid ≠ pid) :
    (some task).filter (fun task => task.pid != pid) = some task := by
  simp [h]

theorem slots_remove (s : Scheduler) (pid : Pid) :
    (s.remove pid).2.slots = s.slots.map fun slot => slot.filter fun task => task.pid != pid := by
  unfold remove
  split
  · rename_i hnone
    refine (List.map_id _).symm.trans (List.map_congr_left fun slot hslot => ?_)
    cases slot with
    | none => rfl
    | some task =>
        exact (filter_of_ne (find?_eq_none_iff.mp hnone task (mem_tasks_iff.mpr hslot))).symm
  · rfl

/-- A task of another number stays where it is. -/
theorem getElem?_remove_of_ne (hslot : s.slots[i]? = some (some task)) (hne : task.pid ≠ pid) :
    (s.remove pid).2.slots[i]? = some (some task) := by
  rw [slots_remove, List.getElem?_map, hslot]
  exact congrArg some (filter_of_ne hne)

/-- No two tasks share a number, and who is selected is in the table. -/
structure Tabled (s : Scheduler) : Prop where
  nodup : (s.tasks.map Task.pid).Nodup
  current_mem : ∀ pid, s.current = some pid → ∃ task ∈ s.tasks, task.pid = pid

/-- Tasks change in their slots, and then perhaps another one is selected. -/
def Moves (s after : Scheduler) : Prop :=
  ∃ mid, Stays s mid ∧ mid.current = s.current ∧ (after = mid ∨ after = mid.schedule.2)

theorem Moves.stays (h : Moves s after) : Stays s after := by
  obtain ⟨mid, hstays, -, rfl | rfl⟩ := h
  · exact hstays
  · exact hstays.trans (.schedule mid)

/-- Tasks that stay keep their numbers, so whoever was selected is still there. -/
theorem Moves.tabled (h : Moves s after) (htabled : s.Tabled) : after.Tabled := by
  have hpids := h.stays.pids_eq
  obtain ⟨mid, hstays, hcurrent, rfl | rfl⟩ := h
  · refine ⟨hpids ▸ htabled.nodup, fun pid hpid => ?_⟩
    have hmem := List.mem_map.mpr (htabled.current_mem pid (hcurrent.symm.trans hpid))
    rw [← hpids] at hmem
    exact List.mem_map.mp hmem
  · refine ⟨hpids ▸ htabled.nodup, fun pid hpid => ?_⟩
    obtain ⟨task, hmem, htask, -⟩ := canRun_of_schedule hpid
    exact ⟨task, hmem, htask⟩

theorem timerTick_moves (h : s.Tabled) : Moves s s.timerTick.2 := by
  rcases s.timerTick_cases with ⟨-, hrun⟩ | ⟨task, htask, hrun⟩
  · rw [hrun]
    exact ⟨{ s with jiffies := s.jiffies + 1 }, .of_slots_eq rfl, rfl, .inl rfl⟩
  · obtain ⟨pid, -, hfind⟩ := currentTask?_eq_some_iff.mp htask
    have hput : Stays s ({ s with jiffies := s.jiffies + 1 }.put task.spendTick) :=
      Stays.put (s := { s with jiffies := s.jiffies + 1 }) h.nodup hfind rfl
    rcases hrun with ⟨-, hrun⟩ | ⟨-, hrun⟩
    · exact ⟨_, hput, rfl, .inr (congrArg Prod.snd hrun)⟩
    · exact ⟨_, hput, rfl, .inl (congrArg Prod.snd hrun)⟩

theorem sleep_moves (h : s.Tabled) {interruptible : Bool} {next : Option Pid}
    (hrun : s.sleep interruptible = .ok (next, after)) : Moves s after := by
  rcases s.sleep_cases interruptible with ⟨-, hsleep⟩ |
    ⟨task, htask, ⟨e, -, hsleep⟩ | ⟨blocked, hblock, hsleep⟩⟩
  · have hafter := congrArg Prod.snd (Except.ok.inj (hrun.symm.trans hsleep))
    exact ⟨s, .of_slots_eq rfl, rfl, .inr hafter⟩
  · cases hrun.symm.trans hsleep
  · obtain ⟨pid, -, hfind⟩ := currentTask?_eq_some_iff.mp htask
    have hafter := congrArg Prod.snd (Except.ok.inj (hrun.symm.trans hsleep))
    exact ⟨s.put blocked, .put h.nodup hfind (.block hblock), rfl, .inr hafter⟩

/-- What a request does to the slots: tasks move on where they stand, or one joins, or one is
taken out. -/
inductive SlotStep (s : Scheduler) : Request → Scheduler → Prop
  | moved {request : Request} {after : Scheduler} (hmoves : Moves s after) :
      SlotStep s request after
  | added {task : Task} {i : Nat} (hunused : s.Unused task.pid) (hfirst : FirstEmpty s.slots i) :
      SlotStep s (.add task) { s with slots := s.slots.set i (some task) }
  | removed (pid : Pid) : SlotStep s (.remove pid) (s.remove pid).2

theorem serve_slotStep (h : s.Tabled) (request : Request) :
    SlotStep s request (s.serve request).state := by
  have hsame : ∀ {same : Scheduler}, same.slots = s.slots → same.current = s.current →
      Moves s same := fun hslots hcurrent => ⟨_, .of_slots_eq hslots, hcurrent, .inl rfl⟩
  cases request with
  | allocatePid => exact .moved (hsame rfl rfl)
  | add task =>
      have hadding := s.adding task
      rw [serve]
      generalize s.add task = result at hadding ⊢
      cases hadding with
      | taken hused => exact .moved (hsame rfl rfl)
      | full hunused hfull => exact .moved (hsame rfl rfl)
      | placed hunused hfirst => exact .added hunused hfirst
  | remove pid => exact .removed pid
  | schedule => exact .moved ⟨s, .of_slots_eq rfl, rfl, .inr rfl⟩
  | timerTick => exact .moved (timerTick_moves h)
  | sleep interruptible =>
      rw [serve]
      cases hrun : s.sleep interruptible with
      | ok answer => exact .moved (sleep_moves h hrun)
      | error e => exact .moved (hsame rfl rfl)
  | wakeAll => exact .moved ⟨_, .mapTasks fun task _ => .wake task, rfl, .inl rfl⟩

/-- The task in the slot that was empty comes on top of the others. -/
theorem filterMap_set_perm {slots : List (Option Task)} (hempty : slots[i]? = some none)
    (task : Task) :
    ((slots.set i (some task)).filterMap id).Perm (task :: slots.filterMap id) := by
  induction slots generalizing i with
  | nil => cases hempty
  | cons slot rest ih =>
      cases i with
      | zero =>
          cases hempty
          exact .refl _
      | succ i =>
          have hrest := ih hempty
          cases slot with
          | none => exact hrest
          | some other => exact (hrest.cons other).trans (.swap task other _)

/-- Who is removed is not selected any more. -/
theorem current_of_remove (h : s.Tabled) {selected : Pid}
    (hselected : (s.remove pid).2.current = some selected) :
    s.current = some selected ∧ selected ≠ pid := by
  unfold remove at hselected
  split at hselected
  · rename_i hnone
    refine ⟨hselected, ?_⟩
    rintro rfl
    obtain ⟨task, hmem, hpid⟩ := h.current_mem selected hselected
    exact find?_eq_none_iff.mp hnone task hmem hpid
  · dsimp only at hselected
    split at hselected
    · cases hselected
    · rename_i hother
      refine ⟨hselected, ?_⟩
      rintro rfl
      exact hother hselected

theorem SlotStep.tabled {request : Request} (hstep : SlotStep s request after) (h : s.Tabled) :
    after.Tabled := by
  cases hstep with
  | moved hmoves => exact hmoves.tabled h
  | @added task i hunused hfirst =>
      have hperm := filterMap_set_perm hfirst.empty task
      constructor
      · refine (hperm.map Task.pid).nodup_iff.mpr ?_
        rw [List.map_cons, List.nodup_cons]
        refine ⟨fun hmem => ?_, h.nodup⟩
        obtain ⟨other, hother, hpid⟩ := List.mem_map.mp hmem
        exact hunused other hother hpid
      · intro pid hpid
        obtain ⟨other, hother, hother'⟩ := h.current_mem pid hpid
        exact ⟨other, hperm.mem_iff.mpr (List.mem_cons_of_mem task hother), hother'⟩
  | removed pid =>
      constructor
      · rw [tasks_remove]
        exact h.nodup.sublist (List.filter_sublist.map Task.pid)
      · intro selected hselected
        obtain ⟨hcurrent, hne⟩ := current_of_remove h hselected
        obtain ⟨task, hmem, rfl⟩ := h.current_mem selected hcurrent
        rw [tasks_remove]
        exact ⟨task, List.mem_filter.mpr ⟨hmem, bne_iff_ne.mpr hne⟩, rfl⟩

theorem SlotStep.length_eq {request : Request} (hstep : SlotStep s request after) :
    after.slots.length = s.slots.length := by
  cases hstep with
  | moved hmoves => exact hmoves.stays.length_eq
  | added _ _ => exact List.length_set
  | removed pid => rw [slots_remove, List.length_map]

/-- Nobody loses a slot but who is removed. -/
theorem SlotStep.exists_later {request : Request} (hstep : SlotStep s request after)
    (hslot : s.slots[i]? = some (some task)) (hstay : request ≠ .remove task.pid) :
    ∃ later, after.slots[i]? = some (some later) ∧ task.Continues later := by
  cases hstep with
  | moved hmoves => exact hmoves.stays.exists_later hslot
  | @added other j _ hfirst =>
      have hne : j ≠ i := by
        rintro rfl
        have hempty := hfirst.empty
        rw [hslot] at hempty
        cases hempty
      exact ⟨task, (List.getElem?_set_ne hne).trans hslot, .refl task⟩
  | removed pid =>
      have hne : task.pid ≠ pid := fun hpid => hstay (congrArg Request.remove hpid.symm)
      exact ⟨task, getElem?_remove_of_ne hslot hne, .refl task⟩

/-! ### Runs -/

theorem Tabled.serve (h : s.Tabled) (request : Request) : (s.serve request).state.Tabled :=
  (serve_slotStep h request).tabled h

/-- `list` is what a walk over the slots `places` meets, and these are the slots of the tasks
that it concerns. -/
structure Walks (slots : List (Option Task)) (concerns : Task → Prop) (places : List Nat)
    (list : List Task) : Prop where
  ascending : places.Pairwise (· < ·)
  mem_iff : ∀ i, i ∈ places ↔ ∃ task, slots[i]? = some (some task) ∧ concerns task
  meets : list.map (fun task => some (some task)) = places.map fun i => slots[i]?

/-- `list` has each task that it concerns once, in slot order. -/
def Lists (s : Scheduler) (concerns : Task → Prop) (list : List Task) : Prop :=
  ∃ places, Walks s.slots concerns places list

namespace Walks

variable {rest : List (Option Task)} {concerns : Task → Prop} {places : List Nat}
  {list : List Task}

theorem skip (h : Walks rest concerns places list) {slot : Option Task}
    (hslot : ∀ task, slot = some task → ¬concerns task) :
    Walks (slot :: rest) concerns (places.map (· + 1)) list where
  ascending := List.pairwise_map.mpr (h.ascending.imp Nat.succ_lt_succ)
  mem_iff := by
    intro i
    cases i with
    | zero =>
        simp only [List.mem_map, Nat.succ_ne_zero, and_false, exists_false, false_iff,
          List.getElem?_cons_zero, Option.some.injEq]
        rintro ⟨task, heq, hconcerns⟩
        exact hslot task heq hconcerns
    | succ i => simpa using h.mem_iff i
  meets := by
    rw [h.meets, List.map_map]
    rfl

end Walks

end Scheduler

/-! ### A task that is refused -/

/-- The frames that the task refers to, one for each of its pages. -/
def Task.frames (task : Task) : List FrameId :=
  match task.space with
  | some space => space.table.frames
  | none => []

namespace Scheduler

/-! ### Any table, any requests -/

end Scheduler

end Kernelet
