import Kernelet.Proofs.Memory.Balance

/-!
Ranges of bytes that may cross pages. A write stores the bytes one after the other, and a
page that is shared is copied on the way, by the first byte that goes into it. That is
seen by nobody: what was stored before stays, and every other address reads as before
(`Stored`), because no two addresses of all spaces come to the same byte of memory that
one of them may write.
-/

namespace Kernelet

namespace VirtAddr

theorem add?_eq_some {a b : VirtAddr} {n : Nat} :
    a.add? n = some b ↔ b.toNat = a.toNat + n :=
  ofNat?_eq_some

/-- An address that does not wrap is the one that it would wrap to. -/
theorem wrappingAdd_of_add? {a b : VirtAddr} {n : Nat} (h : a.add? n = some b) :
    a.wrappingAdd n = b := by
  have hsum := add?_eq_some.mp h
  apply VirtAddr.ext
  rw [wrappingAdd, toNat_wrap, ← hsum, Nat.mod_eq_of_lt b.isLt]

/-- An address is its page and its place there. -/
theorem ext_page_place {a b : VirtAddr} (hpage : a.page = b.page) (hplace : a.place = b.place) :
    a = b := by
  have hoffset : a.offset = b.offset := congrArg Fin.val hplace
  apply VirtAddr.ext
  rw [← a.page_mul_add_offset, hpage, hoffset, b.page_mul_add_offset]

end VirtAddr

theorem Page.read_write_self (page : Page) (a : VirtAddr) (byte : UInt8) :
    (page.write a byte).read a = byte := by
  simp [read, write]

theorem Page.read_write_ne (page : Page) {a b : VirtAddr} (h : a.place ≠ b.place) (byte : UInt8) :
    (page.write a byte).read b = page.read b := by
  have hplace : a.place.val ≠ b.place.val := fun heq => h (Fin.ext heq)
  simp [read, write, hplace]

namespace Memory

variable {total reserved : Nat} {others : List PageTable} {m mid after : Memory}
  {a b : VirtAddr} {byte : UInt8} {bytes : List UInt8} {i : Nat}

/-- The bytes have come to stand at the addresses `a + i`, `a + i + 1`, …, every other
address reads as before, and the frames of others hold what they held. -/
structure Stored (m after : Memory) (others : List PageTable) (a : VirtAddr) (i : Nat)
    (bytes : List UInt8) : Prop where
  stored : ∀ k byte, bytes[k]? = some byte →
    ∃ b, a.add? (i + k) = some b ∧ after.readByte b = .ok byte
  elsewhere : ∀ b, (∀ k, k < bytes.length → a.add? (i + k) ≠ some b) →
    after.readByte b = m.readByte b
  keeps : KeepsBytes m.pool after.pool others

theorem Stored.nil (m : Memory) (others : List PageTable) (a : VirtAddr) (i : Nat) :
    Stored m m others a i [] where
  stored := by simp
  elsewhere := fun _ _ => rfl
  keeps := KeepsBytes.refl m.pool others

/-- What a read answers depends on nothing but the page. -/
theorem readByte_congr {left : List PageTable} (h : Fits total reserved others m)
    (hafter : Fits total reserved left after)
    (hpage : after.space.table.page? after.pool b.page = m.space.table.page? m.pool b.page) :
    after.readByte b = m.readByte b := by
  rw [readByte_eq h, readByte_eq hafter, hpage]

/-- A byte that is written is read back, and every other address reads as before. -/
theorem readByte_of_update (h : Fits total reserved others m)
    (hafter : Fits total reserved others after) {page : Page}
    (hpage : m.space.table.page? m.pool b.page = some page)
    (hupdate : Update m after others b.page (page.write b byte)) :
    after.readByte b = .ok byte ∧ ∀ c, b ≠ c → after.readByte c = m.readByte c := by
  constructor
  · rw [readByte_eq hafter, hupdate.page_self]
    dsimp only
    rw [Page.read_write_self]
  · intro c hne
    by_cases hsame : b.page = c.page
    · have hplace : b.place ≠ c.place := fun heq => hne (VirtAddr.ext_page_place hsame heq)
      rw [readByte_eq hafter, readByte_eq h, ← hsame, hupdate.page_self, hpage]
      dsimp only
      rw [Page.read_write_ne page hplace]
    · exact readByte_congr h hafter (hupdate.page_ne c.page hsame)

/-- What was stored first is left alone by what is stored behind it. -/
theorem Stored.cons (hb : a.add? i = some b) (hbyte : mid.readByte b = .ok byte)
    (hothers : ∀ c, b ≠ c → mid.readByte c = m.readByte c)
    (hkeeps : KeepsBytes m.pool mid.pool others)
    (hrest : Stored mid after others a (i + 1) bytes) :
    Stored m after others a i (byte :: bytes) where
  stored := by
    intro k value hvalue
    cases k with
    | zero =>
        cases hvalue
        refine ⟨b, hb, (hrest.elsewhere b ?_).trans hbyte⟩
        intro k _ hk
        have hfirst := VirtAddr.add?_eq_some.mp hb
        have hlater := VirtAddr.add?_eq_some.mp hk
        omega
    | succ k =>
        obtain ⟨c, hc, hread⟩ := hrest.stored k value hvalue
        rw [Nat.succ_add_eq_add_succ] at hc
        exact ⟨c, hc, hread⟩
  elsewhere := by
    intro c hc
    have hne : b ≠ c := by
      rintro rfl
      exact hc 0 (Nat.succ_pos _) hb
    refine (hrest.elsewhere c ?_).trans (hothers c hne)
    intro k hk
    rw [Nat.succ_add_eq_add_succ]
    exact hc (k + 1) (Nat.succ_lt_succ hk)
  keeps := hkeeps.trans hrest.keeps

/-- The byte at `a + n` cannot be written, for the reason `e`. -/
def FailsAt (m : Memory) (a : VirtAddr) (n : Nat) (byte : UInt8) (e : KernelError) : Prop :=
  match a.add? n with
  | none => e = .pageFault (a.wrappingAdd n)
  | some b => m.writeByte b byte = ⟨.error e, m⟩

/-- A write of one byte goes through or changes nothing. -/
theorem writeByte_stored (h : Fits total reserved others m) (b : VirtAddr) (byte : UInt8) :
    (∃ e, m.writeByte b byte = ⟨.error e, m⟩) ∨
    ∃ after, m.writeByte b byte = ⟨.ok (), after⟩ ∧ Fits total reserved others after ∧
      after.readByte b = .ok byte ∧ (∀ c, b ≠ c → after.readByte c = m.readByte c) ∧
      KeepsBytes m.pool after.pool others := by
  rcases writeByte_cases h b byte with
    ⟨-, hrun⟩ | ⟨page, hpage, ⟨-, hrun⟩ | ⟨-, ⟨-, hrun⟩ | ⟨after, hrun, hafter, hupdate⟩⟩⟩
  · exact Or.inl ⟨_, hrun⟩
  · exact Or.inl ⟨_, hrun⟩
  · exact Or.inl ⟨_, hrun⟩
  · obtain ⟨hself, hothers⟩ := readByte_of_update h hafter hpage hupdate
    exact Or.inr ⟨after, hrun, hafter, hself, hothers, hupdate.keeps⟩

/-- A range is written as a whole, or up to a byte that cannot be written. -/
theorem writeFrom_cases (h : Fits total reserved others m) (a : VirtAddr) (i : Nat)
    (bytes : List UInt8) :
    (∃ after, m.writeFrom a i bytes = ⟨.ok (), after⟩ ∧ Stored m after others a i bytes) ∨
    ∃ k byte e after, m.writeFrom a i bytes = ⟨.error e, after⟩ ∧ bytes[k]? = some byte ∧
      Stored m after others a i (bytes.take k) ∧ after.FailsAt a (i + k) byte e := by
  induction bytes generalizing m i with
  | nil => exact Or.inl ⟨m, rfl, Stored.nil m others a i⟩
  | cons byte rest ih =>
      unfold writeFrom rangeAddress
      cases hb : a.add? i with
      | none =>
          refine Or.inr ⟨0, byte, _, m, rfl, rfl, Stored.nil m others a i, ?_⟩
          unfold FailsAt
          rw [Nat.add_zero, hb]
      | some b =>
          dsimp only
          rcases writeByte_stored h b byte with
            ⟨e, hrun⟩ | ⟨mid, hrun, hmid, hself, hothers, hkeeps⟩
          · rw [hrun]
            refine Or.inr ⟨0, byte, e, m, rfl, rfl, Stored.nil m others a i, ?_⟩
            unfold FailsAt
            rw [Nat.add_zero, hb]
            exact hrun
          · rw [hrun]
            dsimp only
            rcases ih hmid (i + 1) with
              ⟨after, hloop, hrest⟩ | ⟨k, value, e, after, hloop, hvalue, hrest, hfails⟩
            · exact Or.inl ⟨after, hloop, hrest.cons hb hself hothers hkeeps⟩
            · rw [Nat.succ_add_eq_add_succ] at hfails
              exact Or.inr ⟨k + 1, value, e, after, hloop, hvalue,
                hrest.cons hb hself hothers hkeeps, hfails⟩

/-- Bytes that stand one after the other are read as a range. -/
theorem readFrom_eq_ok (h : ∀ k byte, bytes[k]? = some byte →
      ∃ b, a.add? (i + k) = some b ∧ m.readByte b = .ok byte) :
    m.readFrom a i bytes.length = .ok bytes := by
  induction bytes generalizing i with
  | nil => rfl
  | cons byte rest ih =>
      obtain ⟨b, hb, hread⟩ := h 0 byte rfl
      have hrest := ih (i := i + 1) fun k value hvalue => by
        rw [Nat.succ_add_eq_add_succ]
        exact h (k + 1) value hvalue
      rw [List.length_cons, readFrom, rangeAddress]
      rw [Nat.add_zero] at hb
      rw [hb]
      dsimp only
      rw [hread]
      dsimp only
      rw [hrest]
      rfl

/-- No byte can be read at `a + k`: the address wraps, or its page is not mapped. -/
def Hole (m : Memory) (a : VirtAddr) (k : Nat) : Prop :=
  ∀ b, a.add? k = some b → m.space.table.isMapped b.page = false

/-- A byte can be read unless there is a hole. -/
theorem readByte_cases (h : Fits total reserved others m) (b : VirtAddr) :
    (m.space.table.isMapped b.page = false ∧ m.readByte b = .error (.pageFault b)) ∨
    (m.space.table.isMapped b.page = true ∧ ∃ byte, m.readByte b = .ok byte) := by
  rw [readByte_eq h, PageTable.page?, PageTable.isMapped]
  cases m.space.table.lookup b.page with
  | none => exact Or.inl ⟨rfl, rfl⟩
  | some entry => exact Or.inr ⟨rfl, _, rfl⟩

theorem not_hole_of_readByte (h : Fits total reserved others m) {k : Nat}
    (hb : a.add? k = some b) (hread : m.readByte b = .ok byte) : ¬ m.Hole a k := by
  intro hhole
  rcases readByte_cases h b with ⟨-, hfault⟩ | ⟨hmapped, -⟩
  · cases hfault.symm.trans hread
  · cases (hhole b hb).symm.trans hmapped

/-- A range is read as a whole, or the read faults at the first hole. -/
theorem readFrom_cases (h : Fits total reserved others m) (a : VirtAddr) (i count : Nat) :
    (∃ bytes, m.readFrom a i count = .ok bytes ∧ bytes.length = count ∧
      ∀ k byte, bytes[k]? = some byte →
        ∃ b, a.add? (i + k) = some b ∧ m.readByte b = .ok byte) ∨
    ∃ k, k < count ∧ (∀ l, l < k → ¬ m.Hole a (i + l)) ∧ m.Hole a (i + k) ∧
      m.readFrom a i count = .error (.pageFault (a.wrappingAdd (i + k))) := by
  induction count generalizing i with
  | zero => exact Or.inl ⟨[], rfl, rfl, by simp⟩
  | succ count ih =>
      unfold readFrom rangeAddress
      cases hb : a.add? i with
      | none =>
          refine Or.inr ⟨0, Nat.succ_pos count, fun l hl => absurd hl (Nat.not_lt_zero l), ?_, rfl⟩
          intro b hsome
          cases hb.symm.trans hsome
      | some b =>
          dsimp only
          rcases readByte_cases h b with ⟨hfree, hread⟩ | ⟨-, byte, hread⟩
          · rw [hread]
            refine Or.inr ⟨0, Nat.succ_pos count, fun l hl => absurd hl (Nat.not_lt_zero l), ?_, ?_⟩
            · intro c hc
              cases hb.symm.trans hc
              exact hfree
            · exact congrArg (fun c => Except.error (KernelError.pageFault c))
                (VirtAddr.wrappingAdd_of_add? hb).symm
          · rw [hread]
            dsimp only
            rcases ih (i + 1) with
              ⟨bytes, hloop, hlength, hbytes⟩ | ⟨k, hk, hbefore, hhole, hloop⟩
            · left
              rw [hloop]
              refine ⟨byte :: bytes, rfl, congrArg Nat.succ hlength, ?_⟩
              intro k value hvalue
              cases k with
              | zero =>
                  cases hvalue
                  exact ⟨b, hb, hread⟩
              | succ k =>
                  rw [← Nat.succ_add_eq_add_succ]
                  exact hbytes k value hvalue
            · right
              rw [hloop]
              rw [Nat.succ_add_eq_add_succ] at hhole ⊢
              refine ⟨k + 1, Nat.succ_lt_succ hk, ?_, hhole, rfl⟩
              intro l hl
              cases l with
              | zero => exact not_hole_of_readByte h hb hread
              | succ l =>
                  rw [← Nat.succ_add_eq_add_succ]
                  exact hbefore l (Nat.lt_of_succ_lt_succ hl)

end Memory

end Kernelet
