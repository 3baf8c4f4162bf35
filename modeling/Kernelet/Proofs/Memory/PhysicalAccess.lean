import Kernelet.Proofs.Memory.FirstFit

/-!
Physical memory by address. One test bounds every access (`Guarded`): the range has to end where
memory ends or before, and an empty range may stand at the very end. What a write puts at an
address is read off its data (`written?`), so that a read after a write is the same equation for
ranges that overlap and for ranges that do not. Over a whole history an address holds what the
last request that put anything there left (`byteAt_serveAll`): a write its data, a copy the byte
of the source at that moment, and a hand-out a zero.
-/

namespace Kernelet.FramePool

variable {pool after : FramePool} {a b : PhysAddr} {bytes : List UInt8}

/-! ### The bound -/

/-- An access to `length` bytes from `a` on goes through exactly when memory reaches as far as
their end, and is refused at `a` otherwise. -/
structure Guarded {α : Type} (pool : FramePool) (a : PhysAddr) (length : Nat)
    (result : Except KernelError α) : Prop where
  ok_iff : (∃ value, result = .ok value) ↔ a.toNat + length ≤ pageSize * pool.total
  fault : pageSize * pool.total < a.toNat + length → result = .error (.hostFault a)

theorem inRange_iff (pool : FramePool) (a : PhysAddr) (length : Nat) :
    pool.inRange a length = true ↔ a.toNat + length ≤ pageSize * pool.total := by
  unfold inRange byteSize
  rw [decide_eq_true_iff, Nat.mul_comm]

/-- Every access is the same test around what it does. -/
theorem guarded_ite {α : Type} (pool : FramePool) (a : PhysAddr) (length : Nat) (value : α) :
    pool.Guarded a length
      (if pool.inRange a length then .ok value else .error (.hostFault a)) := by
  have hbound := inRange_iff pool a length
  by_cases h : pool.inRange a length = true
  · rw [if_pos h]
    exact {
      ok_iff := ⟨fun _ => hbound.mp h, fun _ => ⟨value, rfl⟩⟩
      fault := fun hbeyond => absurd (hbound.mp h) (Nat.not_le_of_lt hbeyond) }
  · rw [if_neg h]
    refine ⟨⟨?_, fun hle => absurd (hbound.mpr hle) h⟩, fun _ => rfl⟩
    rintro ⟨value, hvalue⟩
    cases hvalue

/-! ### Writing -/

/-- The byte that `bytes`, written from `a` on, put at `b`, if they reach it. -/
def written? (a : PhysAddr) (bytes : List UInt8) (b : PhysAddr) : Option UInt8 :=
  if a.toNat ≤ b.toNat then bytes[b.toNat - a.toNat]? else none

theorem written?_nil (a b : PhysAddr) : written? a [] b = none := by
  unfold written?
  split
  · rfl
  · rfl

theorem written?_cons (a b : PhysAddr) (byte : UInt8) (rest : List UInt8) :
    written? a (byte :: rest) b = if a = b then some byte else written? (a.add 1) rest b := by
  unfold written?
  by_cases hab : a = b
  · subst hab
    rw [if_pos (Nat.le_refl _), if_pos rfl, Nat.sub_self]
    rfl
  · have hne : a.toNat ≠ b.toNat := fun heq => hab (by cases a; cases b; cases heq; rfl)
    rw [if_neg hab]
    by_cases hle : a.toNat ≤ b.toNat
    · obtain ⟨n, hn⟩ := Nat.exists_eq_add_of_lt (Nat.lt_of_le_of_ne hle hne)
      have hnext : (a.add 1).toNat = a.toNat + 1 := rfl
      rw [if_pos hle, if_pos (by omega), show b.toNat - a.toNat = n + 1 by omega,
        show b.toNat - (a.add 1).toNat = n by omega, List.getElem?_cons_succ]
    · have hnext : (a.add 1).toNat = a.toNat + 1 := rfl
      rw [if_neg hle, if_neg (by omega)]

/-- Two pools differ in bytes alone, and only in those that `put` names: they have its value
in the second. -/
structure Rewrites (pool after : FramePool) (put : PhysAddr → Option UInt8) : Prop where
  byteAt_eq : ∀ b, after.byteAt b = (put b).getD (pool.byteAt b)
  total_eq : after.total = pool.total
  freeCount_eq : after.freeCount = pool.freeCount
  refCount_eq : ∀ f, after.refCount f = pool.refCount f

/-- Every address below the end of memory lies in some frame of it. -/
theorem frame_lt_total (h : a.toNat < pageSize * pool.total) : a.frame < pool.total :=
  Nat.div_lt_of_lt_mul h

theorem byteAt_setBytes (b : PhysAddr) (h : a.toNat + bytes.length ≤ pageSize * pool.total) :
    (pool.setBytes a bytes).byteAt b = (written? a bytes b).getD (pool.byteAt b) := by
  induction bytes generalizing pool a with
  | nil =>
      rw [written?_nil]
      rfl
  | cons byte rest ih =>
      rw [List.length_cons] at h
      have hframe : a.frame < pool.total := frame_lt_total (by omega)
      have hrest : (a.add 1).toNat + rest.length ≤ pageSize * (pool.setByte a byte).total := by
        rw [total_setByte]
        show a.toNat + 1 + rest.length ≤ _
        omega
      have hbyte := ih hrest
      rw [byteAt_setByte] at hbyte
      rw [setBytes, hbyte, written?_cons]
      by_cases hab : a = b
      · -- the rest of the data starts behind `a`
        have hbehind : written? (a.add 1) rest b = none := by
          unfold written?
          rw [if_neg (by rw [← hab]; exact Nat.not_succ_le_self a.toNat)]
        rw [if_pos ⟨hab, hframe⟩, if_pos hab, hbehind]
        rfl
      · rw [if_neg (fun heq => hab heq.1), if_neg hab]

theorem writeRange_eq_ok (h : pool.writeRange a bytes = .ok after) :
    a.toNat + bytes.length ≤ pageSize * pool.total ∧ after = pool.setBytes a bytes := by
  unfold writeRange at h
  split at h
  · rename_i hin
    cases h
    exact ⟨(inRange_iff pool a bytes.length).mp hin, rfl⟩
  · cases h

theorem writeRange_rewrites (h : pool.writeRange a bytes = .ok after) :
    pool.Rewrites after (written? a bytes) := by
  obtain ⟨hbound, rfl⟩ := writeRange_eq_ok h
  exact {
    byteAt_eq := fun b => byteAt_setBytes b hbound
    total_eq := total_setBytes pool a bytes
    freeCount_eq := freeCount_setBytes pool a bytes
    refCount_eq := refCount_setBytes pool a bytes }

theorem writeByte_eq_writeRange (pool : FramePool) (a : PhysAddr) (byte : UInt8) :
    pool.writeByte a byte = pool.writeRange a [byte] := rfl

theorem readByte_eq_ok_iff (pool : FramePool) (a : PhysAddr) (byte : UInt8) :
    pool.readByte a = .ok byte ↔ pool.readRange a 1 = .ok [byte] := by
  unfold readByte readRange
  have hsame : (List.range 1).map (fun i => pool.byteAt (a.add i)) = [pool.byteAt a] := rfl
  split
  · rw [hsame]
    simp
  · simp

/-! ### Copying -/

/-- The byte that a copy puts at `b`, if `b` lies in the frame that is copied to. -/
def copied? (pool : FramePool) (source target : FrameId) (b : PhysAddr) : Option UInt8 :=
  if target = b.frame then some (pool.byteAt ((FrameId.base source).add b.offset)) else none

theorem copyFrame_rewrites {source target : FrameId}
    (h : pool.copyFrame source target = .ok after) :
    pool.Rewrites after (pool.copied? source target) where
  byteAt_eq := by
    intro b
    rw [byteAt_copyFrame h, copied?]
    split
    · rfl
    · rfl
  total_eq := total_copyFrame h
  freeCount_eq := freeCount_copyFrame h
  refCount_eq := refCount_copyFrame h

theorem copyFrame_ok_iff {source target : FrameId} :
    (∃ after, pool.copyFrame source target = .ok after) ↔
      source < pool.total ∧ target < pool.total := by
  constructor
  · rintro ⟨after, hrun⟩
    obtain ⟨htarget, frame, hframe, -⟩ := copyFrame_eq_ok hrun
    exact ⟨(Array.getElem?_eq_some_iff.mp hframe).1, htarget⟩
  · rintro ⟨hsource, htarget⟩
    exact exists_copyFrame hsource htarget

/-- The frame that is copied from is looked at first. -/
theorem copyFrame_error {source target : FrameId} {e : KernelError}
    (h : pool.copyFrame source target = .error e) :
    e = .hostFault (FrameId.base (if source < pool.total then target else source)) := by
  unfold copyFrame at h
  by_cases hsource : source < pool.total
  · rw [if_pos ((inRange_base_iff pool source).mpr hsource)] at h
    rw [if_pos hsource]
    by_cases htarget : target < pool.total
    · rw [if_pos ((inRange_base_iff pool target).mpr htarget),
        Array.getElem?_eq_getElem (show source < pool.frames.size from hsource)] at h
      cases h
    · rw [if_neg (fun hin => htarget ((inRange_base_iff pool target).mp hin))] at h
      cases h
      rfl
  · rw [if_neg (fun hin => hsource ((inRange_base_iff pool source).mp hin))] at h
    rw [if_neg hsource]
    cases h
    rfl

/-! ### Reading back -/

/-- The byte that a request puts at `b`, if it puts one there. -/
def puts? (pool : FramePool) (b : PhysAddr) : Request → Option UInt8
  | .allocate =>
    match pool.allocate with
    | .ok (f, _) => if f = b.frame then some 0 else none
    | .error _ => none
  | .free _ => none
  | .share _ => none
  | .copyFrame source target =>
    if source < pool.total ∧ target < pool.total then pool.copied? source target b else none
  | .writeRange a bytes => if pool.inRange a bytes.length then written? a bytes b else none

/-- The byte that was put at `b` last, by requests that were served in turn. -/
def lastPut? (pool : FramePool) (b : PhysAddr) : List Request → Option UInt8
  | [] => none
  | request :: rest => ((pool.serve request).state.lastPut? b rest).or (pool.puts? b request)

theorem byteAt_serve (pool : FramePool) (request : Request) (b : PhysAddr) :
    (pool.serve request).state.byteAt b = (pool.puts? b request).getD (pool.byteAt b) := by
  cases request with
  | allocate =>
      rw [serve, puts?]
      cases hrun : pool.allocate with
      | ok handed =>
          show handed.2.byteAt b = _
          rw [byteAt_allocate hrun]
          show _ = (if handed.1 = b.frame then some 0 else none).getD _
          split
          · rfl
          · rfl
      | error e => rfl
  | free f => exact byteAt_free pool f b
  | share f =>
      rw [serve, puts?]
      cases hrun : pool.share f with
      | ok after => exact byteAt_share hrun b
      | error e => rfl
  | copyFrame source target =>
      rw [serve, puts?]
      cases hrun : pool.copyFrame source target with
      | ok after =>
          rw [if_pos (copyFrame_ok_iff.mp ⟨after, hrun⟩)]
          exact (copyFrame_rewrites hrun).byteAt_eq b
      | error e =>
          have hrefused : ¬(source < pool.total ∧ target < pool.total) := by
            intro hboth
            obtain ⟨after, hok⟩ := copyFrame_ok_iff.mpr hboth
            rw [hrun] at hok
            cases hok
          rw [if_neg hrefused]
          rfl
  | writeRange a bytes =>
      rw [serve, puts?, writeRange]
      split
      · rename_i hin
        exact byteAt_setBytes b ((inRange_iff pool a bytes.length).mp hin)
      · rfl

theorem byteAt_serveAll (pool : FramePool) (requests : List Request) (b : PhysAddr) :
    (pool.serveAll requests).byteAt b = (pool.lastPut? b requests).getD (pool.byteAt b) := by
  induction requests generalizing pool with
  | nil => rfl
  | cons request rest ih =>
      calc (pool.serveAll (request :: rest)).byteAt b
          = ((pool.serve request).state.serveAll rest).byteAt b := rfl
        _ = ((pool.serve request).state.lastPut? b rest).getD
              ((pool.puts? b request).getD (pool.byteAt b)) := by rw [ih, byteAt_serve]
        _ = (pool.lastPut? b (request :: rest)).getD (pool.byteAt b) := by
            rw [lastPut?, Option.getD_or]

theorem total_serve (pool : FramePool) (request : Request) :
    (pool.serve request).state.total = pool.total := by
  generalize hnext : (pool.serve request).state = next
  have hstep := serve_countStep pool request
  rw [hnext] at hstep
  cases hstep with
  | kept htotal => exact htotal
  | allocated hrun => exact total_allocate hrun
  | shared _ hrun => exact total_share hrun
  | freed _ => exact total_free pool _

theorem total_serveAll (pool : FramePool) (requests : List Request) :
    (pool.serveAll requests).total = pool.total := by
  induction requests generalizing pool with
  | nil => rfl
  | cons request rest ih => exact (ih (pool.serve request).state).trans (total_serve pool request)

theorem byteAt_new (total reserved : Nat) (b : PhysAddr) : (new total reserved).byteAt b = 0 := by
  unfold byteAt
  split
  · rename_i frame hframe
    have hmem := Array.mem_of_getElem? hframe
    simp only [new, Array.mem_append, Array.mem_replicate] at hmem
    rcases hmem with ⟨-, rfl⟩ | ⟨-, rfl⟩
    · exact Vector.getElem_replicate _
    · exact Vector.getElem_replicate _
  · rfl

/-! ### Any pool, any history -/

/-- What an access to physical memory does, whatever the pool has come to. -/
structure Exact (pool : FramePool) : Prop where
  readByte_guarded : ∀ a, pool.Guarded a 1 (pool.readByte a)
  writeByte_guarded : ∀ a byte, pool.Guarded a 1 (pool.writeByte a byte)
  readRange_guarded : ∀ a length, pool.Guarded a length (pool.readRange a length)
  writeRange_guarded : ∀ a bytes, pool.Guarded a bytes.length (pool.writeRange a bytes)
  /-- A byte is a range of one. -/
  readByte_iff : ∀ a byte, pool.readByte a = .ok byte ↔ pool.readRange a 1 = .ok [byte]
  writeByte_eq : ∀ a byte, pool.writeByte a byte = pool.writeRange a [byte]
  /-- A write puts its data where it says, and changes nothing else. -/
  write : ∀ a bytes after, pool.writeRange a bytes = .ok after →
    pool.Rewrites after (written? a bytes)
  write_refused : ∀ a bytes, pageSize * pool.total < a.toNat + bytes.length →
    pool.serve (.writeRange a bytes) = ⟨.error (.hostFault a), pool⟩
  copy_iff : ∀ source target, (∃ after, pool.copyFrame source target = .ok after) ↔
    source < pool.total ∧ target < pool.total
  /-- A copy makes the target what the source was, also when they are one frame, and changes
  nothing else. -/
  copy : ∀ source target after, pool.copyFrame source target = .ok after →
    after.bytesOf target = pool.bytesOf source ∧
      pool.Rewrites after (pool.copied? source target)
  copy_refused : ∀ source target, ¬(source < pool.total ∧ target < pool.total) →
    pool.serve (.copyFrame source target) =
      ⟨.error (.hostFault (FrameId.base (if source < pool.total then target else source))), pool⟩

theorem exact_of_pool (pool : FramePool) : pool.Exact where
  readByte_guarded := fun a => guarded_ite pool a 1 _
  writeByte_guarded := fun a _ => guarded_ite pool a 1 _
  readRange_guarded := fun a length => guarded_ite pool a length _
  writeRange_guarded := fun a bytes => guarded_ite pool a bytes.length _
  readByte_iff := readByte_eq_ok_iff pool
  writeByte_eq := writeByte_eq_writeRange pool
  write := fun _ _ _ => writeRange_rewrites
  write_refused := by
    intro a bytes hbeyond
    have hguard : pool.Guarded a bytes.length (pool.writeRange a bytes) :=
      guarded_ite pool a bytes.length _
    rw [serve, hguard.fault hbeyond]
    rfl
  copy_iff := fun _ _ => copyFrame_ok_iff
  copy := by
    intro source target after hrun
    exact ⟨(bytesOf_copyFrame hrun target).trans (if_pos rfl), copyFrame_rewrites hrun⟩
  copy_refused := by
    intro source target hrefused
    rw [serve]
    cases hrun : pool.copyFrame source target with
    | ok after => exact absurd (copyFrame_ok_iff.mp ⟨after, hrun⟩) hrefused
    | error e =>
        rw [copyFrame_error hrun]
        rfl

/-- A memory of `total` frames that has served some requests: every access to it is bounded and
exact, and a read finds what was put there last, or the zeros of the start. -/
structure Recalls (total : Nat) (start : FramePool) (requests : List Request) : Prop where
  total_eq : (start.serveAll requests).total = total
  exact_access : (start.serveAll requests).Exact
  readRange_eq : ∀ a length, a.toNat + length ≤ pageSize * total →
    (start.serveAll requests).readRange a length =
      .ok ((List.range length).map fun i => (start.lastPut? (a.add i) requests).getD 0)

/-- Whatever was asked of a pool, its memory is read and written exactly and within its bounds. -/
theorem serveAll_recalls (total reserved : Nat) (requests : List Request) :
    Recalls total (new total reserved) requests := by
  have htotal : ((new total reserved).serveAll requests).total = total :=
    (total_serveAll _ requests).trans (total_new total reserved)
  refine ⟨htotal, exact_of_pool _, ?_⟩
  intro a length hbound
  have hin : ((new total reserved).serveAll requests).inRange a length = true := by
    rw [inRange_iff, htotal]
    exact hbound
  rw [readRange, if_pos hin]
  refine congrArg Except.ok (List.map_congr_left fun i _ => ?_)
  rw [byteAt_serveAll, byteAt_new]

end Kernelet.FramePool
