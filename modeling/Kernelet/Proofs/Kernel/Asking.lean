import Kernelet.Proofs.Kernel.Parentage
import Kernelet.Proofs.Kernel.Reaping

/-!
Who waits for a child, told from what has happened. A process that asks for a
terminated child while all of its children live is marked as waiting, whether it goes
to sleep for that or not. The mark is taken away when the process reaps a child, when
it is told of the end of one, and when it ends itself, but not when it wakes for
another reason and goes on without asking again. So whoever is marked has asked and
has had no answer since (`waits_iff_unanswered`).
-/

namespace Kernelet.Kernel

namespace Served

/-- The request asks for a terminated child of a live process `pid`, which has children,
and none of them has terminated yet. -/
structure Asks (event : Served) (pid : Pid) : Prop where
  request : event.request.reaper? = some pid
  lives : event.before.Lives pid
  attended : Kin.HasChild event.before.family pid
  noneDead : ¬ Kin.Reapable event.before.family pid

/-- What puts an end to a wait of process `pid`. -/
inductive Answers (event : Served) (pid : Pid) : Prop
  /-- The process ends itself. -/
  | ended (code : Int) (hends : event.Ends pid code)
  /-- A child of the process ends. -/
  | told (child : Task) (code : Int) (hchild : event.before.find? child.pid = some child)
      (hparent : child.ppid = pid) (hends : event.Ends child.pid code)
  /-- The process is handed a child that has terminated. -/
  | reaped (child : Pid) (code : Int) (hrequest : event.request.reaper? = some pid)
      (hresult : event.result = .ok (.reaped child code))

end Served

/-- The process has asked for a terminated child, and has had no answer since. -/
def Unanswered (past : List Served) (pid : Pid) : Prop :=
  ∃ earlier event later, past = earlier ++ event :: later ∧ event.Asks pid ∧
    ∀ other ∈ later, ¬ other.Answers pid

variable {k : Kernel} {past : List Served} {event : Served} {pid q : Pid} {code : Int}

theorem not_unanswered_nil : ¬ Unanswered [] pid := by
  rintro ⟨earlier, event, later, hsplit, -⟩
  simp at hsplit

/-- The last event is the question, or it leaves an earlier one unanswered. -/
theorem unanswered_concat :
    Unanswered (past ++ [event]) pid ↔
      event.Asks pid ∨ (Unanswered past pid ∧ ¬ event.Answers pid) := by
  constructor
  · rintro ⟨earlier, asked, later, hsplit, hasks, hnone⟩
    rcases List.eq_nil_or_concat later with rfl | ⟨later, last, rfl⟩
    · obtain ⟨-, hlast⟩ := List.append_inj' hsplit rfl
      cases hlast
      exact Or.inl hasks
    · have hsplit : past ++ [event] = (earlier ++ asked :: later) ++ [last] := by
        simpa using hsplit
      obtain ⟨rfl, hlast⟩ := List.append_inj' hsplit rfl
      cases hlast
      refine Or.inr ⟨⟨earlier, asked, later, rfl, hasks, ?_⟩, hnone event (by simp)⟩
      intro other hmem
      exact hnone other (by simp [hmem])
  · rintro (hasks | ⟨⟨earlier, asked, later, rfl, hasks, hnone⟩, hlast⟩)
    · exact ⟨past, event, [], rfl, hasks, by simp⟩
    · refine ⟨earlier, asked, later ++ [event], by simp, hasks, ?_⟩
      intro other hmem
      rcases List.mem_append.mp hmem with hold | hnew
      · exact hnone other hold
      · rw [List.mem_singleton.mp hnew]
        exact hlast

section Requests

theorem lives_iff_fate? : k.Lives pid ↔ k.sched.fate? pid = some none := by
  unfold Lives Scheduler.fate?
  rw [Option.map_eq_some_iff]
  exact exists_congr fun task => and_congr_right' Task.fate_eq_none_iff.symm

theorem contains_of_lives (h : k.Lives pid) : k.sched.contains pid = true := by
  obtain ⟨task, hfind, -⟩ := h
  have hfind : k.sched.find? pid = some task := hfind
  simp [Scheduler.contains, hfind]

theorem ends?_of_ends (h : event.Ends pid code) : event.request.ends? = some pid := by
  rcases h.request with hexit | ⟨hkill, -⟩
  · rw [hexit]
    rfl
  · rw [hkill]
    rfl

theorem reaper?_of_ends? {request : Request} (h : request.ends? = some pid) :
    request.reaper? = none := by
  unfold Request.ends? at h
  split at h
  · rfl
  · rfl
  · cases h

/-- A request for a child does what a wait does to families, and hands over the same
children. -/
theorem serve_reaper {total reserved : Nat} (h : Fits total reserved k) {request : Request}
    {parent : Pid} (hrequest : request.reaper? = some parent) :
    (k.serve request).state.family = (k.wait parent).state.family ∧
      ∀ child code, (k.serve request).result = .ok (.reaped child code) ↔
        (k.wait parent).result = .ok (child, code) := by
  cases request with
  | wait asker =>
      cases hrequest
      refine ⟨rfl, ?_⟩
      intro child code
      show (k.wait parent).result.map _ = _ ↔ _
      cases (k.wait parent).result <;> simp [Except.map, Prod.ext_iff]
  | waitOrBlock asker =>
      cases hrequest
      refine ⟨waitOrBlock_family h parent, ?_⟩
      intro child code
      show (k.waitOrBlock parent).result.map _ = _ ↔ _
      rcases waitOrBlock_cases k parent with ⟨-, hrun⟩ | ⟨hblocks, hrun⟩
      · rw [hrun]
        show ((k.wait parent).result.map some).map _ = _ ↔ _
        cases (k.wait parent).result <;> simp [Except.map, Prod.ext_iff]
      · rw [hrun, hblocks]
        show (((k.wait parent).state.blockProcess parent).result.map _).map _ = _ ↔ _
        cases ((k.wait parent).state.blockProcess parent).result <;> simp [Except.map]
  | _ => cases hrequest

end Requests

namespace Served.Sound

/-- A process that lives before a request and has terminated after it was ended by it. -/
theorem ends_of_dead (h : event.Sound) (hlives : event.before.Lives pid) {task : Task}
    (hfind : event.after.find? pid = some task) (hdead : task.isZombie = true) :
    ∃ code, event.Ends pid code := by
  have hfate := Scheduler.fate?_of_find? hfind
  rw [Task.fate_of_isZombie hdead] at hfate
  rcases h.of_dead hfate with hbefore | hends
  · rw [lives_iff_fate?.mp hlives] at hbefore
    cases hbefore
  · exact ⟨_, hends⟩

theorem ends_of_family (h : event.Sound) {ending : Kin} (hmem : ending ∈ event.before.family)
    (hlive : ending.zombie = false)
    (hafter : event.after.family =
      event.before.family.map (Kin.exit ending.pid ending.ppid)) :
    ∃ code, event.Ends ending.pid code := by
  have hgone : Kin.exit ending.pid ending.ppid ending ∈ event.after.family := by
    rw [hafter]
    exact List.mem_map_of_mem hmem
  obtain ⟨task, htask, hkin⟩ := List.mem_map.mp hgone
  have hpid : task.pid = ending.pid := congrArg Kin.pid hkin
  have hdead : task.isZombie = true := by
    have hzombie := congrArg Kin.zombie hkin
    simpa [Kin.exit, Task.kin] using hzombie
  apply h.ends_of_dead
  · exact (lives_iff_alive h.dispatched.proper).mpr ⟨ending, hmem, rfl, hlive⟩
  · exact (Scheduler.find?_eq_some_iff h.after_dispatched.proper).mpr ⟨htask, hpid⟩
  · exact hdead

/-- The end of a process is an answer to itself and to its parent. -/
theorem answers_iff_of_ends (h : event.Sound) {ending : Kin} (hmem : ending ∈ event.before.family)
    (hends : event.Ends ending.pid code) :
    event.Answers pid ↔ pid = ending.pid ∨ pid = ending.ppid := by
  have hself : ∀ {q : Pid} {other : Int}, event.Ends q other → q = ending.pid := by
    intro q other hother
    exact Option.some.inj ((ends?_of_ends hother).symm.trans (ends?_of_ends hends))
  obtain ⟨task, htask, rfl⟩ := List.mem_map.mp hmem
  have hfind : event.before.find? task.pid = some task :=
    (Scheduler.find?_eq_some_iff h.dispatched.proper).mpr ⟨htask, rfl⟩
  constructor
  · intro hanswers
    cases hanswers with
    | ended other hother => exact Or.inl (hself hother)
    | told child other hchild hparent hother =>
        have hsame : child.pid = task.pid := hself hother
        rw [hsame, hfind] at hchild
        cases hchild
        exact Or.inr hparent.symm
    | reaped child other hrequest hresult =>
        rw [reaper?_of_ends? (ends?_of_ends hends)] at hrequest
        cases hrequest
  · rintro (rfl | rfl)
    · exact Answers.ended code hends
    · exact Answers.told task code hfind rfl hends

/-- A request for a child is an answer to who asks, and only if there is one to reap. -/
theorem answers_iff_of_reaper (hrequest : event.request.reaper? = some q) :
    event.Answers pid ↔ pid = q ∧ ∃ child code, event.result = .ok (.reaped child code) := by
  have hnone : ∀ {other : Pid} {code : Int}, ¬ event.Ends other code := by
    intro other code hends
    rw [reaper?_of_ends? (ends?_of_ends hends)] at hrequest
    cases hrequest
  constructor
  · intro hanswers
    cases hanswers with
    | ended code hends => exact absurd hends hnone
    | told child code _ _ hends => exact absurd hends hnone
    | reaped child code hreaper hresult =>
        rw [hrequest] at hreaper
        cases hreaper
        exact ⟨rfl, child, code, hresult⟩
  · rintro ⟨rfl, child, code, hresult⟩
    exact Answers.reaped child code hrequest hresult

theorem not_answers (h : event.Sound) (hrequest : event.request.reaper? = none)
    (hdead : ∀ member ∈ event.before.family,
      event.request.ends? = some member.pid → member.zombie = true) :
    ¬ event.Answers pid := by
  have hnone : ∀ {other : Pid} {code : Int}, ¬ event.Ends other code := by
    intro other code hends
    obtain ⟨member, hmem, rfl, hlive⟩ :=
      (lives_iff_alive h.dispatched.proper).mp (lives_iff_fate?.mpr hends.lived)
    rw [hdead member hmem (ends?_of_ends hends)] at hlive
    cases hlive
  intro hanswers
  cases hanswers with
  | ended code hends => exact hnone hends
  | told child code _ _ hends => exact hnone hends
  | reaped child code hreaper _ =>
      rw [hrequest] at hreaper
      cases hreaper

/-- Where nobody asks for a child, a wait goes on unless it is answered. -/
theorem waits_iff_of_other (h : event.Sound) (hfit : event.after.NumbersFit)
    (hrequest : event.request.reaper? = none) :
    Kin.Waits event.after.family pid ↔
      Kin.Waits event.before.family pid ∧ ¬ event.Answers pid := by
  have hstate : (event.before.serve event.request).state = event.after :=
    congrArg Outcome.state h.serve_eq
  have hgrows := serve_grows h.dispatched.proper (hstate.symm ▸ hfit)
    (fun parent heq => by rw [heq] at hrequest; cases hrequest)
    (fun parent heq => by rw [heq] at hrequest; cases hrequest)
  rw [hstate] at hgrows
  rcases hgrows with ⟨ending, hmem, -, hlive, hafter⟩ | ⟨hdead, hgrows⟩
  · obtain ⟨code, hends⟩ := h.ends_of_family hmem hlive hafter
    rw [hafter, Kin.waits_exit_iff, h.answers_iff_of_ends hmem hends, not_or]
  · rw [hgrows.waits_iff]
    exact (and_iff_left (h.not_answers hrequest hdead)).symm

variable {total reserved : Nat}

/-- Whoever asks for a child stops waiting if there is one to reap, and waits from then
on if all of them live. -/
theorem waits_iff_of_reaper (h : event.Sound) (hsettled : Settled total reserved event.before)
    (hrequest : event.request.reaper? = some q) :
    Kin.Waits event.after.family pid ↔
      event.Asks pid ∨ (Kin.Waits event.before.family pid ∧ ¬ event.Answers pid) := by
  obtain ⟨hfamily, hreaped⟩ := serve_reaper hsettled.fits hrequest
  rw [congrArg Outcome.state h.serve_eq] at hfamily
  rw [h.serve_eq] at hreaped
  have hself : event.Asks pid → pid = q := by
    intro hasks
    exact Option.some.inj (hasks.request.symm.trans hrequest)
  have hrefused : ∀ {e : KernelError}, (event.before.wait q).result = .error e →
      ¬ ∃ child code, event.result = .ok (.reaped child code) := by
    rintro e hresult ⟨child, code, hgiven⟩
    rw [(hreaped child code).mp hgiven] at hresult
    cases hresult
  rw [hfamily, answers_iff_of_reaper hrequest]
  rcases wait_family event.before q with
    ⟨child, hmem, hparent, hdead, ⟨code, hresult⟩, hafter⟩ | ⟨⟨e, hresult, -⟩, hnone, hafter⟩ |
      ⟨hchild, hlive, hresult, hafter⟩
  · have hquiet : ¬ event.Asks pid := by
      intro hasks
      cases hself hasks
      exact hasks.noneDead ⟨child, hmem, hparent, hdead⟩
    have hanswer : ∃ child code, event.result = .ok (.reaped child code) :=
      ⟨child.pid, code, (hreaped _ _).mpr hresult⟩
    rw [hafter, Kin.waits_reaped_iff hsettled.ordered hmem hdead, or_iff_right hquiet, and_comm,
      and_iff_left hanswer]
  · have hquiet : ¬ event.Asks pid := by
      intro hasks
      cases hself hasks
      rcases hnone with habsent | hchildless
      · rw [contains_of_lives hasks.lives] at habsent
        cases habsent
      · exact hchildless hasks.attended
    rw [hafter, or_iff_right hquiet]
    exact (and_iff_left fun hanswer => hrefused hresult hanswer.2).symm
  · have hasks : event.Asks pid ↔ pid = q ∧ Kin.Alive event.before.family pid := by
      constructor
      · intro hasks
        exact ⟨hself hasks, (lives_iff_alive h.dispatched.proper).mp hasks.lives⟩
      · rintro ⟨rfl, halive⟩
        exact ⟨hrequest, (lives_iff_alive h.dispatched.proper).mpr halive, hchild, hlive⟩
    rw [hafter, Kin.waits_mark_iff, or_comm, hasks]
    exact or_congr_right (and_iff_left fun hanswer => hrefused hresult hanswer.2).symm

/-- Whoever waits after a request has asked just now, or waited before and was given no
answer. -/
theorem waits_iff (h : event.Sound) (hsettled : Settled total reserved event.before)
    (hfit : event.after.NumbersFit) :
    Kin.Waits event.after.family pid ↔
      event.Asks pid ∨ (Kin.Waits event.before.family pid ∧ ¬ event.Answers pid) := by
  cases hrequest : event.request.reaper? with
  | some q => exact h.waits_iff_of_reaper hsettled hrequest
  | none =>
      rw [h.waits_iff_of_other hfit hrequest, or_iff_right]
      intro hasks
      rw [hasks.request] at hrequest
      cases hrequest

end Served.Sound

/-- As long as no number comes round, whoever is marked as waiting has asked for a child
and has had no answer since. -/
theorem waits_iff_unanswered {config : Config} (hfault : config.fault? = none)
    (done : List Request) (hfit : ((ofConfig config).serveAll done).2.NumbersFit) :
    Kin.Waits ((ofConfig config).serveAll done).2.family pid ↔
      Unanswered ((ofConfig config).history done) pid := by
  induction done using List.reverseRecOn with
  | nil =>
      refine iff_of_false ?_ not_unanswered_nil
      rintro ⟨task, hmem, -⟩
      rw [show ((ofConfig config).serveAll []).2 = ofConfig config from rfl,
        family_ofConfig] at hmem
      cases hmem
  | append_singleton done request ih =>
      have hdispatched := serveAll_dispatched (ofConfig_dispatched config) done
      rw [serveAll_concat] at hfit ⊢
      have hbefore := numbersFit_of_serve hdispatched.proper hfit
      have hsettled := (ofConfig_settled hfault).serveAll hbefore
      have hevent : (((ofConfig config).serveAll done).2.served request).Sound :=
        ⟨hdispatched, rfl⟩
      rw [history_concat, unanswered_concat, ← ih hbefore]
      exact hevent.waits_iff hsettled hfit

end Kernelet.Kernel
