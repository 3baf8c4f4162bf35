import Kernelet.Proofs.Kernel.Course

/-!
Every process is created once, ends once, and is reaped once at most. Whoever
reaps it is its parent, and is told the exit code that it ended with; from then
on nothing is known of the process any more. The history of a run lists what was
asked and answered, with the kernel before and after each request, and
`reapsOnce_of_boot` is about the histories of all runs.
-/

namespace Kernelet.Kernel

/-- A request that was served: the answer, and the kernel before and after it. -/
structure Served where
  before : Kernel
  request : Request
  result : Except KernelError Reply
  after : Kernel

def served (k : Kernel) (request : Request) : Served where
  before := k
  request := request
  result := (k.serve request).result
  after := (k.serve request).state

/-- What happens while requests are served in turn. -/
def history (k : Kernel) : List Request → List Served
  | [] => []
  | request :: rest => k.served request :: (k.serve request).state.history rest

/-- The process that has to be there for a request to have an effect. -/
def Request.subject? : Request → Option Pid
  | .fork pid | .exit pid _ | .wait pid | .waitOrBlock pid | .kill pid _ | .exec pid
  | .access pid _ => some pid
  | _ => none

namespace Served

/-- The request ended process `pid`, which lived before it and has terminated
with code `code` after it. -/
structure Ends (event : Served) (pid : Pid) (code : Int) : Prop where
  request : event.request = .exit pid code ∨ event.request = .kill pid .kill ∧ code = 137
  result : event.result = .ok .done
  lived : event.before.sched.fate? pid = some none
  dead : event.after.sched.fate? pid = some (some code)

/-- The request handed process `pid`, which had terminated with code `code`, over
to its parent. -/
structure Reaps (event : Served) (pid : Pid) (code : Int) : Prop where
  dead : event.before.sched.fate? pid = some (some code)
  parent : ∃ child, event.before.find? pid = some child ∧
    event.before.sched.contains child.ppid = true ∧
    (event.request = .wait child.ppid ∨ event.request = .waitOrBlock child.ppid)
  gone : event.after.find? pid = none

/-- The request found no process `pid` and made none. If it was about that
process it was refused. -/
structure Misses (event : Served) (pid : Pid) : Prop where
  before : event.before.find? pid = none
  after : event.after.find? pid = none
  refused : event.request.subject? = some pid → event.result = .error (.noSuchProcess pid)

end Served

/-- Nobody is created, ends or is reaped twice. Who is reaped has ended before, with
the code that is told to its parent, and nothing more is known of it. There is no
other way for a zombie to leave the table, or to come by another exit code. -/
structure ReapsOnce (history : List Served) : Prop where
  created_once : history.Pairwise fun earlier later => ∀ pid,
    earlier.result = .ok (.created pid) → later.result ≠ .ok (.created pid)
  ends_once : history.Pairwise fun earlier later => ∀ pid code other,
    earlier.Ends pid code → ¬ later.Ends pid other
  reaped_once : history.Pairwise fun earlier later => ∀ pid code other,
    earlier.result = .ok (.reaped pid code) → later.result ≠ .ok (.reaped pid other)
  missed : history.Pairwise fun earlier later => ∀ pid code,
    earlier.result = .ok (.reaped pid code) → later.Misses pid
  reaps : ∀ past event rest, history = past ++ event :: rest → ∀ pid code,
    event.result = .ok (.reaped pid code) →
      event.Reaps pid code ∧ ∃ earlier ∈ past, earlier.Ends pid code
  kept : ∀ event ∈ history, ∀ pid code, event.before.sched.fate? pid = some (some code) →
    event.after.sched.fate? pid = some (some code) ∨ event.result = .ok (.reaped pid code)

theorem history_concat (k : Kernel) (done : List Request) (request : Request) :
    k.history (done ++ [request]) = k.history done ++ [(k.serveAll done).2.served request] := by
  induction done generalizing k with
  | nil => rfl
  | cons first rest ih => exact congrArg (_ :: ·) (ih (k.serve first).state)

/-- Whatever has happened before an event is the history of the requests before its
own. -/
theorem history_split {k : Kernel} {requests : List Request} {past rest : List Served}
    {event : Served} (h : k.history requests = past ++ event :: rest) :
    ∃ done request, done ++ [request] <+: requests ∧ past = k.history done ∧
      event = (k.serveAll done).2.served request := by
  induction past generalizing k requests with
  | nil =>
      cases requests with
      | nil => cases h
      | cons request others =>
          obtain ⟨rfl, -⟩ := List.cons.inj h
          exact ⟨[], request, List.prefix_append [request] others, rfl, rfl⟩
  | cons first past ih =>
      cases requests with
      | nil => cases h
      | cons request others =>
          obtain ⟨rfl, hrest⟩ := List.cons.inj h
          obtain ⟨done, last, hprefix, rfl, rfl⟩ := ih hrest
          exact ⟨request :: done, last, List.cons_prefix_cons.mpr ⟨rfl, hprefix⟩, rfl, rfl⟩

/-- Whoever asks for a process that is not in the table is refused. -/
theorem serve_of_absent {k : Kernel} {request : Request} {pid : Pid}
    (h : k.find? pid = none) (hsubject : request.subject? = some pid) :
    k.serve request = ⟨.error (.noSuchProcess pid), k⟩ := by
  have hcontains : k.sched.contains pid = false := by
    have hnone : k.sched.find? pid = none := h
    simp [Scheduler.contains, hnone]
  cases request <;> cases hsubject <;>
    simp [serve, fork, exit, wait, waitOrBlock, kill, exec, access, accessSpace, commit,
      Outcome.map, Except.map, Except.bind, h, hcontains]

namespace Course

variable {k after : Kernel} {request : Request} {result : Except KernelError Reply} {pid : Pid}
  {code : Int}

theorem of_created (h : Course k request (.ok (.created pid)) after) :
    pid = k.sched.nextNumber ∧ k.sched.fate? pid = none ∧
      after.sched.nextPid = k.sched.nextPid + 1 := by
  cases h with
  | quiet hresult _ _ => cases hresult _ rfl
  | created hresult hfree _ hnext =>
      cases hresult
      exact ⟨rfl, hfree, hnext⟩
  | ended _ _ _ hresult _ _ _ => cases hresult
  | reaped _ _ _ _ hresult _ _ _ _ => cases hresult

theorem of_reaped (h : Course k request (.ok (.reaped pid code)) after) :
    ∃ child, k.find? pid = some child ∧ child.fate = some code ∧
      k.sched.contains child.ppid = true ∧ request.reaper? = some child.ppid ∧
      after.sched.fate? pid = none ∧ after.sched.nextPid = k.sched.nextPid := by
  cases h with
  | quiet hresult _ _ => cases hresult _ rfl
  | created hresult _ _ _ => cases hresult
  | ended _ _ _ hresult _ _ _ => cases hresult
  | reaped child code hrequest hparent hresult hchild hdead hfate hnext =>
      cases hresult
      refine ⟨child, hchild, hdead, hparent, hrequest, ?_, hnext⟩
      rw [hfate, if_pos rfl]

/-- Who had terminated before a request is left as it is, or reaped. -/
theorem of_zombie (h : Course k request result after)
    (hdead : k.sched.fate? pid = some (some code)) :
    after.sched.fate? pid = some (some code) ∨ result = .ok (.reaped pid code) := by
  cases h.fares pid with
  | unchanged hsame => exact Or.inl (hsame.trans hdead)
  | born _ hbefore _ _ => simp [hdead] at hbefore
  | died _ _ _ hbefore _ => simp [hdead] at hbefore
  | buried other hresult hbefore _ =>
      rw [hdead] at hbefore
      cases hbefore
      exact Or.inr hresult

end Course

section History

variable {k : Kernel} {event : Served} {pid : Pid} {code : Int}

/-- The answer and the kernel after it are those of the request. -/
structure Served.Sound (event : Served) : Prop where
  dispatched : Dispatched event.before
  serve_eq : event.before.serve event.request = ⟨event.result, event.after⟩

namespace Served.Sound

theorem course (h : event.Sound) :
    Course event.before event.request event.result event.after := by
  have hcourse := serve_course h.dispatched.proper event.request
  rw [h.serve_eq] at hcourse
  exact hcourse

theorem after_dispatched (h : event.Sound) : Dispatched event.after := by
  have hserved := serve_dispatched h.dispatched event.request
  rw [h.serve_eq] at hserved
  exact hserved

/-- A process that is reaped has been created and is gone. -/
theorem gone_of_reaped (h : event.Sound) (hreaped : event.result = .ok (.reaped pid code)) :
    Gone event.after pid := by
  have hcourse := h.course
  rw [hreaped] at hcourse
  obtain ⟨child, hchild, -, -, -, hgone, hnext⟩ := hcourse.of_reaped
  refine ⟨?_, hgone⟩
  rw [hnext]
  exact created_of_fate? h.dispatched.proper (Scheduler.fate?_of_find? hchild)

theorem over_of_ends (h : event.Sound) (hends : event.Ends pid code) : Over event.after pid := by
  refine ⟨created_of_fate? h.after_dispatched.proper hends.dead, ?_⟩
  rw [hends.dead]
  simp

theorem reaps (h : event.Sound) (hreaped : event.result = .ok (.reaped pid code)) :
    event.Reaps pid code := by
  have hcourse := h.course
  rw [hreaped] at hcourse
  obtain ⟨child, hchild, hdead, hparent, hrequest, hgone, -⟩ := hcourse.of_reaped
  refine ⟨?_, ⟨child, hchild, hparent, ?_⟩, Scheduler.fate?_eq_none_iff.mp hgone⟩
  · rw [Scheduler.fate?_of_find? hchild, hdead]
  · cases hasked : event.request with
    | wait parent =>
        rw [hasked] at hrequest
        cases hrequest
        exact Or.inl rfl
    | waitOrBlock parent =>
        rw [hasked] at hrequest
        cases hrequest
        exact Or.inr rfl
    | _ =>
        rw [hasked] at hrequest
        cases hrequest

theorem before_fit (h : event.Sound) (hfit : event.after.NumbersFit) :
    event.before.NumbersFit :=
  hfit.of_le h.course.nextPid_le

/-- Nothing comes of a request about a process that is gone. -/
theorem misses (h : event.Sound) (hfit : event.after.NumbersFit) (hgone : Gone event.before pid) :
    event.Misses pid := by
  have habsent : event.before.find? pid = none := Scheduler.fate?_eq_none_iff.mp hgone.absent
  have hafter := h.course.gone_after hgone hfit
  refine ⟨habsent, Scheduler.fate?_eq_none_iff.mp hafter.absent, ?_⟩
  intro hsubject
  have hserve := h.serve_eq
  rw [serve_of_absent habsent hsubject] at hserve
  exact (congrArg Outcome.result hserve).symm

/-- Who has terminated after a request had done so before, or was ended by it. -/
theorem of_dead (h : event.Sound) (hdead : event.after.sched.fate? pid = some (some code)) :
    event.before.sched.fate? pid = some (some code) ∨ event.Ends pid code := by
  cases h.course.fares pid with
  | unchanged hsame => exact Or.inl (hsame.symm.trans hdead)
  | born _ _ _ hafter => simp [hdead] at hafter
  | buried _ _ _ hafter => simp [hdead] at hafter
  | died other hrequest hresult hlive hafter =>
      rw [hdead] at hafter
      cases hafter
      refine Or.inr ⟨?_, hresult, hlive, hdead⟩
      unfold Request.ending? at hrequest
      split at hrequest
      · rename_i hasked
        cases hrequest
        exact Or.inl hasked
      · rename_i hasked
        cases hrequest
        exact Or.inr ⟨hasked, rfl⟩
      · cases hrequest

end Served.Sound

/-- What every request keeps holds before each of them. -/
theorem holds_of_mem_history (holds : Kernel → Prop)
    (hserve : ∀ k request, Dispatched k → holds k → holds (k.serve request).state)
    {requests : List Request} (h : Dispatched k) (hstart : holds k)
    (hmem : event ∈ k.history requests) : event.Sound ∧ holds event.before := by
  induction requests generalizing k with
  | nil => cases hmem
  | cons request rest ih =>
      rcases List.mem_cons.mp hmem with rfl | hlater
      · exact ⟨⟨h, rfl⟩, hstart⟩
      · exact ih (serve_dispatched h request) (hserve k request h hstart) hlater

theorem sound_of_mem_history {requests : List Request} (h : Dispatched k)
    (hmem : event ∈ k.history requests) : event.Sound :=
  (holds_of_mem_history (fun _ => True) (fun _ _ _ _ => trivial) h trivial hmem).1

/-- Numbers that fit after a history have done so all along. -/
theorem fits_of_mem_history {requests : List Request} (h : Dispatched k)
    (hfit : (k.serveAll requests).2.NumbersFit) (hmem : event ∈ k.history requests) :
    event.after.NumbersFit := by
  induction requests generalizing k with
  | nil => cases hmem
  | cons request rest ih =>
      have hafter := serve_dispatched h request
      rcases List.mem_cons.mp hmem with rfl | hlater
      · exact numbersFit_of_serveAll hafter hfit
      · exact ih hafter hfit hlater

/-- What a request brings about, and every other one keeps, holds ever after. -/
theorem pairwise_history {α : Type} (brings : α → Served → Prop) (holds : α → Kernel → Prop)
    (hserve : ∀ a k request, Dispatched k → holds a k → holds a (k.serve request).state)
    (hbrings : ∀ a event, event.Sound → brings a event → holds a event.after)
    (h : Dispatched k) (requests : List Request) :
    (k.history requests).Pairwise fun earlier later =>
      ∀ a, brings a earlier → later.Sound ∧ holds a later.before := by
  induction requests generalizing k with
  | nil => exact List.Pairwise.nil
  | cons request rest ih =>
      refine List.pairwise_cons.mpr ⟨?_, ih (serve_dispatched h request)⟩
      intro later hlater a hfirst
      exact holds_of_mem_history (holds a) (hserve a) (serve_dispatched h request)
        (hbrings a _ ⟨h, rfl⟩ hfirst) hlater

/-- A zombie was ended in the course of the history, if all zombies that it began
with were ended in the past. -/
theorem ends_of_dead {requests : List Request} (past : List Served) {earlier rest : List Served}
    (h : Dispatched k)
    (hpast : ∀ code, k.sched.fate? pid = some (some code) → ∃ e ∈ past, e.Ends pid code)
    (hsplit : k.history requests = earlier ++ event :: rest)
    (hdead : event.before.sched.fate? pid = some (some code)) :
    ∃ e ∈ past ++ earlier, e.Ends pid code := by
  induction earlier generalizing k requests past with
  | nil =>
      cases requests with
      | nil => cases hsplit
      | cons request others =>
          obtain ⟨rfl, -⟩ := List.cons.inj hsplit
          simpa using hpast code hdead
  | cons first earlier ih =>
      cases requests with
      | nil => cases hsplit
      | cons request others =>
          obtain ⟨rfl, hrest⟩ := List.cons.inj hsplit
          have hfirst : (k.served request).Sound := ⟨h, rfl⟩
          have hknown := ih (past ++ [k.served request]) (serve_dispatched h request) ?_ hrest
          · simpa using hknown
          · intro code hafter
            rcases hfirst.of_dead hafter with hbefore | hends
            · obtain ⟨e, hmem, hends⟩ := hpast code hbefore
              exact ⟨e, List.mem_append_left _ hmem, hends⟩
            · exact ⟨_, List.mem_append_right _ (List.mem_singleton_self _), hends⟩

end History

section Fitting

variable {k : Kernel} {requests : List Request}

theorem created_once (h : Dispatched k) (hfit : (k.serveAll requests).2.NumbersFit) :
    (k.history requests).Pairwise fun earlier later => ∀ pid,
      earlier.result = .ok (.created pid) → later.result ≠ .ok (.created pid) := by
  have hlater := pairwise_history
    (fun pid event => event.result = .ok (.created pid))
    (fun pid k => pid < k.sched.nextPid) ?_ ?_ h requests
  · refine hlater.imp_of_mem ?_
    intro earlier later _ hmem hlater pid hcreated hagain
    obtain ⟨hsound, hknown⟩ := hlater pid hcreated
    have hcourse := hsound.course
    rw [hagain] at hcourse
    obtain ⟨hpid, -, hnext⟩ := hcourse.of_created
    exact ne_nextNumber hknown hnext (fits_of_mem_history h hfit hmem) hpid
  · intro pid k request hdispatched hknown
    exact Nat.lt_of_lt_of_le hknown (serve_course hdispatched.proper request).nextPid_le
  · intro pid event hsound hcreated
    have hcourse := hsound.course
    rw [hcreated] at hcourse
    obtain ⟨rfl, -, hnext⟩ := hcourse.of_created
    rw [hnext]
    exact Nat.lt_succ_of_le event.before.sched.nextNumber_le

theorem ends_once (h : Dispatched k) (hfit : (k.serveAll requests).2.NumbersFit) :
    (k.history requests).Pairwise fun earlier later => ∀ pid code other,
      earlier.Ends pid code → ¬ later.Ends pid other := by
  have hlater := pairwise_history
    (fun pid event => ∃ code, event.Ends pid code) (fun pid k => k.NumbersFit → Over k pid)
    ?_ ?_ h requests
  · refine hlater.imp_of_mem ?_
    intro earlier later _ hmem hlater pid code other hends hagain
    obtain ⟨hsound, hover⟩ := hlater pid ⟨code, hends⟩
    have hbefore := hsound.before_fit (fits_of_mem_history h hfit hmem)
    exact (hover hbefore).ended hagain.lived
  · intro pid k request hdispatched hover hafter
    have hbefore := numbersFit_of_serve hdispatched.proper hafter
    exact serve_over hdispatched.proper (hover hbefore) hafter
  · rintro pid event hsound ⟨code, hends⟩ -
    exact hsound.over_of_ends hends

theorem missed_once_reaped (h : Dispatched k) (hfit : (k.serveAll requests).2.NumbersFit) :
    (k.history requests).Pairwise fun earlier later => ∀ pid code,
      earlier.result = .ok (.reaped pid code) → later.Sound ∧ later.Misses pid := by
  have hlater := pairwise_history
    (fun pid event => ∃ code, event.result = .ok (.reaped pid code))
    (fun pid k => k.NumbersFit → Gone k pid) ?_ ?_ h requests
  · refine hlater.imp_of_mem ?_
    intro earlier later _ hmem hlater pid code hreaped
    obtain ⟨hsound, hgone⟩ := hlater pid ⟨code, hreaped⟩
    have hafter := fits_of_mem_history h hfit hmem
    exact ⟨hsound, hsound.misses hafter (hgone (hsound.before_fit hafter))⟩
  · intro pid k request hdispatched hgone hafter
    have hbefore := numbersFit_of_serve hdispatched.proper hafter
    exact serve_gone hdispatched.proper (hgone hbefore) hafter
  · rintro pid event hsound ⟨code, hreaped⟩ -
    exact hsound.gone_of_reaped hreaped

end Fitting

/-- Whatever is asked of a kernel from its start on, every process is created once,
ends once, and is reaped once at most, by its parent and with the exit code that it
ended with, as long as the numbers of processes do not come round. -/
theorem reapsOnce_of_boot {config : Config} {k : Kernel} (hboot : boot config = .ok k)
    {requests : List Request} (hfit : (k.serveAll requests).2.NumbersFit) :
    ReapsOnce (k.history requests) := by
  obtain ⟨-, rfl⟩ := boot_eq_ok_iff.mp hboot
  have hstart := ofConfig_dispatched config
  have hmissed := missed_once_reaped hstart hfit
  refine ⟨created_once hstart hfit, ends_once hstart hfit, ?_, ?_, ?_, ?_⟩
  · refine hmissed.imp ?_
    intro earlier later hlater pid code other hreaped hagain
    obtain ⟨hsound, hmisses⟩ := hlater pid code hreaped
    have hthere := (hsound.reaps hagain).dead
    rw [Scheduler.fate?_eq_none_iff.mpr hmisses.before] at hthere
    cases hthere
  · refine hmissed.imp ?_
    intro earlier later hlater pid code hreaped
    exact (hlater pid code hreaped).2
  · intro past event rest hsplit pid code hreaped
    have hmem : event ∈ (ofConfig config).history requests := by
      rw [hsplit]
      simp
    have hsound := sound_of_mem_history hstart hmem
    have hreaps := hsound.reaps hreaped
    refine ⟨hreaps, ?_⟩
    have hends := ends_of_dead [] hstart ?_ hsplit hreaps.dead
    · simpa using hends
    · intro code hdead
      simp [Scheduler.fate?, Scheduler.find?, ofConfig] at hdead
  · intro event hmem pid code hdead
    have hsound := sound_of_mem_history hstart hmem
    exact hsound.course.of_zombie hdead

/-- One child exits and another is killed. Their parent reaps both, and neither is
known after that. -/
theorem reapsOnce_exit_kill_wait :
    let requests : List Request :=
      [.createInit, .spawn "a" initPid 0, .spawn "b" initPid 0, .exit 2 7, .kill 3 .kill,
        .wait initPid, .waitOrBlock initPid, .wait 2]
    boot Config.small = .ok (ofConfig Config.small) ∧
    ((ofConfig Config.small).serveAll requests).1 =
      [.ok (.created initPid), .ok (.created 2), .ok (.created 3), .ok .done, .ok .done,
        .ok (.reaped 2 7), .ok (.reaped 3 137), .error (.noSuchProcess 2)] ∧
    ((ofConfig Config.small).serveAll requests).2.NumbersFit ∧
    ReapsOnce ((ofConfig Config.small).history requests) := by
  have hboot : boot Config.small = .ok (ofConfig Config.small) :=
    boot_eq_ok_iff.mpr ⟨by decide, rfl⟩
  intro requests
  have hfit : ((ofConfig Config.small).serveAll requests).2.NumbersFit :=
    ofConfig_numbersFit Config.small (by decide)
  refine ⟨hboot, ?_, hfit, reapsOnce_of_boot hboot hfit⟩
  decide +kernel

end Kernelet.Kernel
