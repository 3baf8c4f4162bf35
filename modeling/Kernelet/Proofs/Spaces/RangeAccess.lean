import Kernelet.Proofs.Memory.Ranges
import Kernelet.Proofs.Spaces.Origin

/-!
Ranges of bytes, whatever became of the spaces before. A range that is written is read
back, and no other byte of this or of any other space reads differently. A write that
fails has stored the bytes before the one at which it fails, and no others. A read fails
exactly if there is a hole in the range, at the first one (`rangeAccess_serveAll`).
-/

namespace Kernelet.Spaces

/-- What a read of the byte at `b` in space `j` answers. -/
def peek (s : Spaces) (j : Nat) (b : VirtAddr) : Except KernelError Reply :=
  (s.serve (.access j (.readByte b))).result

/-- The bytes have come to stand from `a` on in space `i`, and every other byte of this
and of all other spaces reads as before. -/
structure Stores (s : Spaces) (i : Nat) (a : VirtAddr) (bytes : List UInt8) (after : Spaces) :
    Prop where
  stored : ∀ k byte, bytes[k]? = some byte →
    ∃ b, a.add? k = some b ∧ after.peek i b = .ok (.access (.byte byte))
  elsewhere : ∀ b, (∀ k, k < bytes.length → a.add? k ≠ some b) → after.peek i b = s.peek i b
  others : ∀ j, i ≠ j → ∀ b, after.peek j b = s.peek j b

/-- The address `a + k` wraps, or its page is not mapped in space `i`. -/
def Hole (s : Spaces) (i : Nat) (a : VirtAddr) (k : Nat) : Prop :=
  ∀ b, a.add? k = some b → ¬ ∃ entry, s.Maps i b.page entry

/-- A write of `byte` at `a + k` in space `i` fails with `e` and changes nothing. Past the
top of the address range it faults at the address that it wraps to. -/
def FailsAt (s : Spaces) (i : Nat) (a : VirtAddr) (k : Nat) (byte : UInt8) (e : KernelError) :
    Prop :=
  match a.add? k with
  | none => e = .pageFault (a.wrappingAdd k)
  | some b => s.serve (.access i (.writeByte b byte)) = ⟨.error e, s⟩

/-- What comes of writing the bytes from `a` on in space `i`. -/
structure WritesRange (s : Spaces) (i : Nat) (a : VirtAddr) (bytes : List UInt8)
    (run : Outcome Spaces Reply) : Prop where
  answers : run.result = .ok (.access .done) ∨ ∃ e, run.result = .error e
  done : run.result = .ok (.access .done) → s.Stores i a bytes run.state ∧
    (run.state.serve (.access i (.readRange a bytes.length))).result =
      .ok (.access (.bytes bytes))
  failed : ∀ e, run.result = .error e → ∃ k byte, bytes[k]? = some byte ∧
    s.Stores i a (bytes.take k) run.state ∧ run.state.FailsAt i a k byte e

/-- What comes of reading `length` bytes from `a` on in space `i`. -/
structure ReadsRange (s : Spaces) (i : Nat) (a : VirtAddr) (length : Nat)
    (result : Except KernelError Reply) : Prop where
  fails_iff : (∃ e, result = .error e) ↔ ∃ k, k < length ∧ s.Hole i a k
  fault : ∀ k, k < length → s.Hole i a k → (∀ l, l < k → ¬ s.Hole i a l) →
    result = .error (.pageFault (a.wrappingAdd k))
  bytes : (∃ e, result = .error e) ∨ ∃ bytes, result = .ok (.access (.bytes bytes)) ∧
    bytes.length = length ∧ ∀ k byte, bytes[k]? = some byte →
      ∃ b, a.add? k = some b ∧ s.peek i b = .ok (.access (.byte byte))

variable {total reserved : Nat} {s : Spaces} {i j : Nat} {space : AddressSpace} {a b : VirtAddr}
  {m : Memory}

theorem peek_eq (hspace : s.space? i = some space) (b : VirtAddr) :
    s.peek i b = (((Memory.mk space s.pool).readByte b).map Memory.Reply.byte).map .access := by
  unfold peek
  rw [serve_access hspace]
  rfl

/-- A space that is put back reads as it was left. -/
theorem peek_put_self (hi : i < s.slots.length) (m : Memory) (b : VirtAddr) :
    (s.put i m).peek i b = ((m.readByte b).map Memory.Reply.byte).map .access :=
  peek_eq (space?_put hi m) b

theorem readRange_put_self (hi : i < s.slots.length) (m : Memory) (a : VirtAddr)
    (length : Nat) :
    ((s.put i m).serve (.access i (.readRange a length))).result =
      ((m.readRange a length).map Memory.Reply.bytes).map .access := by
  rw [serve_access (space?_put hi m)]
  rfl

/-- Other spaces read as before if the bytes in their frames are kept. -/
theorem peek_put_ne (h : Fits total reserved s) (hafter : Fits total reserved (s.put i m))
    (hij : i ≠ j) (hkeeps : KeepsBytes s.pool m.pool (tablesIn (s.slots.set i none)))
    (b : VirtAddr) :
    (s.put i m).peek j b = s.peek j b := by
  have hplace := space?_put_ne (s := s) hij m
  cases hspace : s.space? j with
  | none =>
      rw [hspace] at hplace
      simp only [peek, serve, access, hplace, hspace]
  | some space =>
      rw [hspace] at hplace
      have hpage := hkeeps.page?_eq (table_mem_of_ne hij hspace) b.page
      rw [peek_eq hplace, peek_eq hspace,
        Memory.readByte_congr (h.focus hspace) (hafter.focus hplace) hpage]

theorem stores_put (h : Fits total reserved s) (hspace : s.space? i = some space)
    (hafter : Fits total reserved (s.put i m)) {bytes : List UInt8}
    (hstored : Memory.Stored ⟨space, s.pool⟩ m (tablesIn (s.slots.set i none)) a 0 bytes) :
    s.Stores i a bytes (s.put i m) := by
  have hi := lt_length_of_space? hspace
  have hself := peek_put_self hi m
  constructor
  · intro k byte hbyte
    obtain ⟨b, hb, hread⟩ := hstored.stored k byte hbyte
    rw [Nat.zero_add] at hb
    refine ⟨b, hb, ?_⟩
    rw [hself, hread]
    rfl
  · intro b hb
    have hread := hstored.elsewhere b fun k hk => by
      rw [Nat.zero_add]
      exact hb k hk
    rw [hself, peek_eq hspace, hread]
  · intro j hij b
    exact peek_put_ne h hafter hij hstored.keeps b

/-- The same hole, seen from all spaces and from one. -/
theorem hole_iff (hspace : s.space? i = some space) (k : Nat) :
    s.Hole i a k ↔ (Memory.mk space s.pool).Hole a k := by
  have hpage : ∀ b : VirtAddr, (¬ ∃ entry, s.Maps i b.page entry) ↔
      space.table.isMapped b.page = false := by
    intro b
    simp only [maps_iff hspace, PageTable.isMapped_eq_false_iff, Option.eq_none_iff_forall_ne_some,
      not_exists, ne_eq]
  exact forall_congr' fun b => imp_congr_right fun _ => hpage b

theorem failsAt_put (hi : i < s.slots.length) {k : Nat} {byte : UInt8} {e : KernelError}
    (h : m.FailsAt a k byte e) : (s.put i m).FailsAt i a k byte e := by
  unfold Memory.FailsAt at h
  unfold FailsAt
  cases hb : a.add? k with
  | none =>
      rw [hb] at h
      exact h
  | some b =>
      have hplace := space?_put hi m
      have hself := put_self hplace
      have hsame : Memory.mk m.space (s.put i m).pool = m := rfl
      rw [hsame] at hself
      rw [hb] at h
      dsimp only at h ⊢
      rw [serve_access hplace, hsame]
      dsimp only [Memory.serve]
      rw [h]
      dsimp only [Outcome.map]
      rw [hself]
      rfl

theorem writesRange (h : Fits total reserved s) (hspace : s.space? i = some space)
    (a : VirtAddr) (bytes : List UInt8) :
    s.WritesRange i a bytes (s.serve (.access i (.writeRange a bytes))) := by
  have hi := lt_length_of_space? hspace
  have hafter := serve_fits h (.access i (.writeRange a bytes))
  rw [serve_access hspace] at hafter ⊢
  dsimp only [Memory.serve, Memory.writeRange] at hafter ⊢
  rcases Memory.writeFrom_cases (h.focus hspace) a 0 bytes with
    ⟨after, hrun, hstored⟩ | ⟨k, byte, e, after, hrun, hbyte, hstored, hfails⟩
  · rw [hrun] at hafter ⊢
    have hread := Memory.readFrom_eq_ok hstored.stored
    refine ⟨Or.inl rfl, fun _ => ⟨stores_put h hspace hafter hstored, ?_⟩, ?_⟩
    · refine (readRange_put_self hi after a bytes.length).trans ?_
      rw [Memory.readRange, hread]
      rfl
    · intro e he
      cases he
  · rw [hrun] at hafter ⊢
    rw [Nat.zero_add] at hfails
    refine ⟨Or.inr ⟨e, rfl⟩, ?_, ?_⟩
    · intro hdone
      cases hdone
    · intro e he
      cases he
      exact ⟨k, byte, hbyte, stores_put h hspace hafter hstored, failsAt_put hi hfails⟩

theorem readsRange (h : Fits total reserved s) (hspace : s.space? i = some space)
    (a : VirtAddr) (length : Nat) :
    s.ReadsRange i a length (s.serve (.access i (.readRange a length))).result := by
  have hhole := fun k => hole_iff (a := a) hspace k
  rw [serve_access hspace]
  dsimp only [Memory.serve, Memory.readRange]
  rcases Memory.readFrom_cases (h.focus hspace) a 0 length with
    ⟨bytes, hrun, hlength, hbytes⟩ | ⟨first, hfirst, hbefore, hfault, hrun⟩
  · have hwhole : ∀ k, k < length → ¬ s.Hole i a k := by
      intro k hk
      have hget := List.getElem?_eq_getElem (hlength.symm ▸ hk)
      obtain ⟨b, hb, hread⟩ := hbytes k _ hget
      rw [Nat.zero_add] at hb
      rw [hhole]
      exact Memory.not_hole_of_readByte (h.focus hspace) hb hread
    rw [hrun]
    refine ⟨⟨?_, ?_⟩, ?_, Or.inr ⟨bytes, rfl, hlength, ?_⟩⟩
    · rintro ⟨e, he⟩
      cases he
    · rintro ⟨k, hk, hnone⟩
      exact absurd hnone (hwhole k hk)
    · intro k hk hnone
      exact absurd hnone (hwhole k hk)
    · intro k byte hbyte
      obtain ⟨b, hb, hread⟩ := hbytes k byte hbyte
      rw [Nat.zero_add] at hb
      refine ⟨b, hb, ?_⟩
      rw [peek_eq hspace, hread]
      rfl
  · simp only [Nat.zero_add, ← hhole] at hbefore hfault hrun
    rw [hrun]
    refine ⟨⟨fun _ => ⟨first, hfirst, hfault⟩, fun _ => ⟨_, rfl⟩⟩, ?_, Or.inl ⟨_, rfl⟩⟩
    intro k _ hnone hnever
    have hsame : k = first := by
      rcases Nat.lt_trichotomy k first with hlt | heq | hgt
      · exact absurd hnone (hbefore k hlt)
      · exact heq
      · exact absurd hfault (hnever first hgt)
    rw [hsame]
    rfl

/-- After any history, a range is written and read back, or is written and read as far
as it goes. -/
theorem rangeAccess_serveAll (total reserved : Nat) (requests : List Request) {i : Nat}
    {space : AddressSpace} (a : VirtAddr) (bytes : List UInt8) (length : Nat)
    (hspace : ((boot total reserved).serveAll requests).2.space? i = some space) :
    let s := ((boot total reserved).serveAll requests).2
    s.WritesRange i a bytes (s.serve (.access i (.writeRange a bytes))) ∧
      s.ReadsRange i a length (s.serve (.access i (.readRange a length))).result := by
  intro s
  have hfits := serveAll_fits (boot_fits total reserved) requests
  exact ⟨writesRange hfits hspace a bytes, readsRange hfits hspace a length⟩

/-- A range over two pages that a child shares with its parent, and one free frame. -/
theorem rangeAccess_after_fork :
    let earlier : List Request := [.create 16384,
      .access 0 (.map (VirtAddr.ofPage 0) .userData),
      .access 0 (.map (VirtAddr.ofPage 1) .userData)]
    let s := ((boot 4 1).serveAll (earlier ++ [.fork 0])).2
    let a : VirtAddr := ⟨4094, by decide⟩
    (∃ space, s.space? 1 = some space) ∧
      s.WritesRange 1 a [1, 2, 3, 4] (s.serve (.access 1 (.writeRange a [1, 2, 3, 4]))) ∧
      s.ReadsRange 1 a 5000 (s.serve (.access 1 (.readRange a 5000))).result := by
  intro earlier s a
  have hparent : ∃ parent, ((boot 4 1).serveAll earlier).2.space? 0 = some parent := ⟨_, rfl⟩
  obtain ⟨parent, hparent⟩ := hparent
  obtain ⟨space, hspace⟩ := exists_child hparent
  exact ⟨⟨space, hspace⟩, rangeAccess_serveAll 4 1 _ a [1, 2, 3, 4] 5000 hspace⟩

end Kernelet.Spaces
