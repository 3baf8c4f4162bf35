import Kernelet.Error

/-!
Signals and sets of signals. A set is a 32-digit bitmap in which signal `n`
has digit `n - 1`.
-/

namespace Kernelet

/-- How many signals a bitmap has room for. -/
def signalSlots : Nat := 32

/-- The signals that have a meaning. -/
inductive Signal where
  | hup
  | int
  | quit
  | ill
  | trap
  | abrt
  | fpe
  | kill
  | segv
  | pipe
  | alrm
  | term
  /-- A child stopped or terminated. -/
  | chld
  | cont
  | stop
deriving DecidableEq, Repr

namespace Signal

def number : Signal → Nat
  | hup => 1
  | int => 2
  | quit => 3
  | ill => 4
  | trap => 5
  | abrt => 6
  | fpe => 8
  | kill => 9
  | segv => 11
  | pipe => 13
  | alrm => 14
  | term => 15
  | chld => 17
  | cont => 18
  | stop => 19

/-- All signals, by ascending number. -/
def all : List Signal :=
  [hup, int, quit, ill, trap, abrt, fpe, kill, segv, pipe, alrm, term, chld, cont, stop]

def ofNumber (n : Nat) : Except KernelError Signal :=
  match all.find? (fun signal => signal.number == n) with
  | some signal => .ok signal
  | none => .error (.invalidSignal n)

/-- Signals that can be neither blocked nor ignored. -/
def isUnblockable : Signal → Bool
  | kill | stop => true
  | _ => false

/-- The exit code of a task that the signal terminated. -/
def exitCode (signal : Signal) : Int :=
  128 + signal.number

def name : Signal → String
  | hup => "SIGHUP"
  | int => "SIGINT"
  | quit => "SIGQUIT"
  | ill => "SIGILL"
  | trap => "SIGTRAP"
  | abrt => "SIGABRT"
  | fpe => "SIGFPE"
  | kill => "SIGKILL"
  | segv => "SIGSEGV"
  | pipe => "SIGPIPE"
  | alrm => "SIGALRM"
  | term => "SIGTERM"
  | chld => "SIGCHLD"
  | cont => "SIGCONT"
  | stop => "SIGSTOP"

/-- The name without its `SIG`, as one capitalised word. -/
def shortName : Signal → String
  | hup => "Hup"
  | int => "Int"
  | quit => "Quit"
  | ill => "Ill"
  | trap => "Trap"
  | abrt => "Abrt"
  | fpe => "Fpe"
  | kill => "Kill"
  | segv => "Segv"
  | pipe => "Pipe"
  | alrm => "Alrm"
  | term => "Term"
  | chld => "Chld"
  | cont => "Cont"
  | stop => "Stop"

theorem mem_all (signal : Signal) : signal ∈ all := by
  cases signal <;> decide

theorem number_pos (signal : Signal) : 0 < signal.number := by
  cases signal <;> decide

theorem number_lt (signal : Signal) : signal.number < signalSlots := by
  cases signal <;> decide

/-- The number of a signal leads back to it. -/
theorem ofNumber_number (signal : Signal) : ofNumber signal.number = .ok signal := by
  cases signal <;> rfl

theorem number_injective {a b : Signal} (h : a.number = b.number) : a = b := by
  have hok : ofNumber a.number = .ok b := h ▸ ofNumber_number b
  rw [ofNumber_number] at hok
  exact Except.ok.inj hok

end Signal

/-- A set of signals as a bitmap. -/
structure SignalSet where
  bits : BitVec 32
deriving DecidableEq

namespace SignalSet

def empty : SignalSet :=
  ⟨0⟩

/-- One signal alone. -/
def single (signal : Signal) : SignalSet :=
  ⟨BitVec.twoPow 32 (signal.number - 1)⟩

def contains (set : SignalSet) (signal : Signal) : Bool :=
  set.bits.getLsbD (signal.number - 1)

def insert (set : SignalSet) (signal : Signal) : SignalSet :=
  ⟨set.bits ||| (single signal).bits⟩

def erase (set : SignalSet) (signal : Signal) : SignalSet :=
  ⟨set.bits &&& ~~~(single signal).bits⟩

def diff (set other : SignalSet) : SignalSet :=
  ⟨set.bits &&& ~~~other.bits⟩

/-- Whether no digit of the bitmap is set. -/
def isEmpty (set : SignalSet) : Bool :=
  set.bits == 0

/-- The lowest-numbered signal of the set. -/
def first? (set : SignalSet) : Option Signal :=
  Signal.all.find? set.contains

def toNat (set : SignalSet) : Nat :=
  set.bits.toNat

theorem contains_single (a b : Signal) : (single a).contains b = decide (a = b) := by
  have ha : a.number - 1 < 32 := Nat.lt_of_le_of_lt (Nat.sub_le _ _) a.number_lt
  have hab : a.number - 1 = b.number - 1 ↔ a = b := by
    constructor
    · intro h
      have hpos := a.number_pos
      have hpos' := b.number_pos
      exact Signal.number_injective (by omega)
    · rintro rfl
      rfl
  rw [contains, single, BitVec.getLsbD_twoPow, decide_eq_true ha, Bool.true_and]
  exact decide_eq_decide.2 hab

theorem contains_insert (set : SignalSet) (a b : Signal) :
    (set.insert a).contains b = (set.contains b || decide (a = b)) := by
  rw [← contains_single a b]
  exact BitVec.getLsbD_or

theorem contains_erase (set : SignalSet) (a b : Signal) :
    (set.erase a).contains b = (set.contains b && !decide (a = b)) := by
  have hb : b.number - 1 < 32 := Nat.lt_of_le_of_lt (Nat.sub_le _ _) b.number_lt
  have hnot : (~~~(single a).bits).getLsbD (b.number - 1) = !(single a).contains b := by
    rw [BitVec.getLsbD_not, decide_eq_true hb, Bool.true_and]
    rfl
  rw [← contains_single a b, ← hnot]
  exact BitVec.getLsbD_and

end SignalSet

end Kernelet
