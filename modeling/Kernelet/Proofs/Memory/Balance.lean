import Kernelet.Memory.Request
import Kernelet.Proofs.Memory.Sharing

/-!
Whatever is asked of one address space, and whether or not it succeeds, the
pool goes on to back exactly what the tables name, and the frames that other
spaces name hold what they held. Each loop is an induction over its steps, and
each step is one of the updates of a single page.
-/

namespace Kernelet

/-- A space that goes takes its names with it. -/
theorem Balanced.releaseFrames {total reserved : Nat} {pool : FramePool} {space : AddressSpace}
    {others : List PageTable} (h : Balanced total reserved pool (space.table :: others)) :
    Balanced total reserved (space.releaseFrames pool) others where
  backs := h.backs.freeAll
  tidy := h.tidy.of_cons

namespace Memory

/-- The space and its pool are in balance, next to the tables of other
spaces. -/
abbrev Fits (total reserved : Nat) (others : List PageTable) (m : Memory) : Prop :=
  Balanced total reserved m.pool (m.space.table :: others)

variable {total reserved : Nat} {others : List PageTable} {m : Memory}

theorem mapPage_fits (h : Fits total reserved others m) (a : VirtAddr) (flags : PageFlags) :
    Fits total reserved others (m.mapPage a flags).state := by
  rcases mapPage_cases h a flags with
    ⟨-, hrun⟩ | ⟨-, -, hrun⟩ | ⟨-, -, ⟨-, hrun⟩ | ⟨after, hrun, hafter, -⟩⟩
  · rw [hrun]
    exact h
  · rw [hrun]
    exact h
  · rw [hrun]
    exact h
  · rw [hrun]
    exact hafter

theorem mapPages_fits (h : Fits total reserved others m) (first : Nat) (flags : PageFlags)
    (count : Nat) : Fits total reserved others (m.mapPages first flags count).state := by
  induction count generalizing m first with
  | zero => exact h
  | succ count ih =>
      have hpage := mapPage_fits h (VirtAddr.ofPage first) flags
      unfold mapPages
      rcases hrun : m.mapPage (VirtAddr.ofPage first) flags with ⟨_ | _, after⟩
      · rw [hrun] at hpage
        exact hpage
      · rw [hrun] at hpage
        exact ih hpage (first + 1)

/-- A heap that grows maps data pages in a row. -/
theorem growPages_state (m : Memory) (first count : Nat) :
    (m.growPages first count).2 = (m.mapPages first .userData count).state := by
  induction count generalizing m first with
  | zero => rfl
  | succ count ih =>
      unfold growPages mapPages
      rcases m.mapPage (VirtAddr.ofPage first) .userData with ⟨_ | _, after⟩
      · rfl
      · exact ih after (first + 1)

/-- Growing the heap maps pages in a row and sets the end of the heap after them, or does
nothing. -/
theorem expandBrk_state (m : Memory) (newBrk : VirtAddr) :
    (m.expandBrk newBrk).2 = m ∨ ∃ first count stop,
      let after := (m.mapPages first .userData count).state
      (m.expandBrk newBrk).2 = { after with space := { after.space with brk := stop } } := by
  unfold expandBrk
  dsimp only
  split
  · exact Or.inl rfl
  · split
    · exact Or.inl rfl
    · rename_i target _
      split
      · exact Or.inl rfl
      · have hgrown := m.growPages_state (m.space.brk / pageSize)
          (target.page - m.space.brk / pageSize)
        right
        refine ⟨m.space.brk / pageSize, target.page - m.space.brk / pageSize, ?_⟩
        rcases hrun : m.growPages (m.space.brk / pageSize)
          (target.page - m.space.brk / pageSize) with ⟨_ | stopped, after⟩
        · rw [hrun] at hgrown
          exact ⟨target.toNat, hgrown ▸ rfl⟩
        · rw [hrun] at hgrown
          exact ⟨max m.space.brk stopped, hgrown ▸ rfl⟩

theorem expandBrk_fits (h : Fits total reserved others m) (newBrk : VirtAddr) :
    Fits total reserved others (m.expandBrk newBrk).2 := by
  rcases m.expandBrk_state newBrk with hsame | ⟨first, count, stop, hgrown⟩
  · rw [hsame]
    exact h
  · rw [hgrown]
    exact mapPages_fits h first .userData count

theorem writeByte_fits (h : Fits total reserved others m) (a : VirtAddr) (byte : UInt8) :
    Fits total reserved others (m.writeByte a byte).state := by
  rcases writeByte_cases h a byte with
    ⟨-, hrun⟩ | ⟨page, -, ⟨-, hrun⟩ | ⟨-, ⟨-, hrun⟩ | ⟨after, hrun, hafter, -⟩⟩⟩
  · rw [hrun]
    exact h
  · rw [hrun]
    exact h
  · rw [hrun]
    exact h
  · rw [hrun]
    exact hafter

theorem writeFrom_fits (h : Fits total reserved others m) (a : VirtAddr) (i : Nat)
    (bytes : List UInt8) : Fits total reserved others (m.writeFrom a i bytes).state := by
  induction bytes generalizing m i with
  | nil => exact h
  | cons byte rest ih =>
      unfold writeFrom
      cases rangeAddress a i with
      | error e => exact h
      | ok b =>
          have hbyte := writeByte_fits h b byte
          dsimp only
          rcases hrun : m.writeByte b byte with ⟨_ | _, after⟩
          · rw [hrun] at hbyte
            exact hbyte
          · rw [hrun] at hbyte
            exact ih hbyte (i + 1)

theorem release_fits (h : Fits total reserved others m) :
    Fits total reserved others m.release := by
  have hgone := Balanced.releaseFrames h
  exact hgone.cons_empty m.space.table.lookup_clear

/-- Every request keeps the balance, whatever comes of it. -/
theorem serve_fits (h : Fits total reserved others m) (request : Request) :
    Fits total reserved others (m.serve request).state := by
  cases request with
  | map a flags => exact mapPage_fits h a flags
  | expandBrk newBrk => exact expandBrk_fits h newBrk
  | readByte a => exact h
  | writeByte a byte => exact writeByte_fits h a byte
  | readRange a length => exact h
  | writeRange a bytes => exact writeFrom_fits h a 0 bytes
  | release => exact release_fits h
  | setCode start stop => exact h
  | setData start stop => exact h

/-! ### The frames of others -/

theorem mapPage_keeps (h : Fits total reserved others m) (a : VirtAddr) (flags : PageFlags) :
    KeepsBytes m.pool (m.mapPage a flags).state.pool others := by
  rcases mapPage_cases h a flags with
    ⟨-, hrun⟩ | ⟨-, -, hrun⟩ | ⟨-, -, ⟨-, hrun⟩ | ⟨after, hrun, -, hupdate⟩⟩
  · rw [hrun]
    exact KeepsBytes.refl m.pool others
  · rw [hrun]
    exact KeepsBytes.refl m.pool others
  · rw [hrun]
    exact KeepsBytes.refl m.pool others
  · rw [hrun]
    exact hupdate.keeps

theorem mapPages_keeps (h : Fits total reserved others m) (first : Nat) (flags : PageFlags)
    (count : Nat) : KeepsBytes m.pool (m.mapPages first flags count).state.pool others := by
  induction count generalizing m first with
  | zero => exact KeepsBytes.refl m.pool others
  | succ count ih =>
      have hfits := mapPage_fits h (VirtAddr.ofPage first) flags
      have hpage := mapPage_keeps h (VirtAddr.ofPage first) flags
      unfold mapPages
      rcases hrun : m.mapPage (VirtAddr.ofPage first) flags with ⟨_ | _, after⟩
      · rw [hrun] at hpage
        exact hpage
      · rw [hrun] at hfits hpage
        exact hpage.trans (ih hfits (first + 1))

theorem expandBrk_keeps (h : Fits total reserved others m) (newBrk : VirtAddr) :
    KeepsBytes m.pool (m.expandBrk newBrk).2.pool others := by
  rcases m.expandBrk_state newBrk with hsame | ⟨first, count, stop, hgrown⟩
  · rw [hsame]
    exact KeepsBytes.refl m.pool others
  · rw [hgrown]
    exact mapPages_keeps h first .userData count

theorem writeByte_keeps (h : Fits total reserved others m) (a : VirtAddr) (byte : UInt8) :
    KeepsBytes m.pool (m.writeByte a byte).state.pool others := by
  rcases writeByte_cases h a byte with
    ⟨-, hrun⟩ | ⟨page, -, ⟨-, hrun⟩ | ⟨-, ⟨-, hrun⟩ | ⟨after, hrun, -, hupdate⟩⟩⟩
  · rw [hrun]
    exact KeepsBytes.refl m.pool others
  · rw [hrun]
    exact KeepsBytes.refl m.pool others
  · rw [hrun]
    exact KeepsBytes.refl m.pool others
  · rw [hrun]
    exact hupdate.keeps

theorem writeFrom_keeps (h : Fits total reserved others m) (a : VirtAddr) (i : Nat)
    (bytes : List UInt8) : KeepsBytes m.pool (m.writeFrom a i bytes).state.pool others := by
  induction bytes generalizing m i with
  | nil => exact KeepsBytes.refl m.pool others
  | cons byte rest ih =>
      unfold writeFrom
      cases rangeAddress a i with
      | error e => exact KeepsBytes.refl m.pool others
      | ok b =>
          have hfits := writeByte_fits h b byte
          have hbyte := writeByte_keeps h b byte
          dsimp only
          rcases hrun : m.writeByte b byte with ⟨_ | _, after⟩
          · rw [hrun] at hbyte
            exact hbyte
          · rw [hrun] at hfits hbyte
            exact hbyte.trans (ih hfits (i + 1))

/-- No request writes to a frame that another space names. -/
theorem serve_keeps (h : Fits total reserved others m) (request : Request) :
    KeepsBytes m.pool (m.serve request).state.pool others := by
  cases request with
  | map a flags => exact mapPage_keeps h a flags
  | expandBrk newBrk => exact expandBrk_keeps h newBrk
  | readByte a => exact KeepsBytes.refl m.pool others
  | writeByte a byte => exact writeByte_keeps h a byte
  | readRange a length => exact KeepsBytes.refl m.pool others
  | writeRange a bytes => exact writeFrom_keeps h a 0 bytes
  | release => exact fun f _ => FramePool.bytesOf_freeAll m.pool m.space.table.frames f
  | setCode start stop => exact KeepsBytes.refl m.pool others
  | setData start stop => exact KeepsBytes.refl m.pool others

end Memory

end Kernelet
