import Mathlib.Tactic

/-!
# Buffered channels

A channel whose values are all alike is known by their number, which its capacity bounds. It serves
as a counting semaphore: a send takes a slot and has to wait for a free one, a receive frees a slot.
A channel of other values is the list of them, the next to be received in front.
-/

namespace YulongHids.Golang

/-- `make(chan bool, cap)` with `len` values in it. -/
@[ext]
structure TokenChan (cap : ℕ) where
  len : ℕ
  len_le : len ≤ cap

namespace TokenChan

variable {cap : ℕ}

/-- `make(chan bool, cap)`. -/
def empty : TokenChan cap := ⟨0, Nat.zero_le cap⟩

/-- `c <- true`, `none` while the channel is full. -/
def send (c : TokenChan cap) : Option (TokenChan cap) :=
  if h : c.len < cap then some ⟨c.len + 1, h⟩ else none

/-- `<-c`, `none` while the channel is empty. -/
def recv (c : TokenChan cap) : Option (TokenChan cap) :=
  if c.len = 0 then none else some ⟨c.len - 1, Nat.le_trans (Nat.sub_le c.len 1) c.len_le⟩

@[simp] theorem len_empty : (empty : TokenChan cap).len = 0 := rfl

theorem send_eq_some_iff {c c' : TokenChan cap} : c.send = some c' ↔ c'.len = c.len + 1 := by
  unfold send
  split_ifs with h
  · rw [Option.some.injEq, TokenChan.ext_iff, eq_comm]
  · have hfull := c'.len_le
    simp only [false_iff]
    omega

theorem recv_eq_some_iff {c c' : TokenChan cap} : c.recv = some c' ↔ c.len = c'.len + 1 := by
  unfold recv
  split_ifs with h
  · simp only [false_iff]
    omega
  · rw [Option.some.injEq, TokenChan.ext_iff]
    show c.len - 1 = c'.len ↔ c.len = c'.len + 1
    omega

/-- A receive waits only for a channel that is empty. -/
theorem exists_recv {c : TokenChan cap} (h : c.len ≠ 0) :
    ∃ c', c.recv = some c' ∧ c.len = c'.len + 1 := by
  have hrecv : c.recv = some ⟨c.len - 1, Nat.le_trans (Nat.sub_le c.len 1) c.len_le⟩ := if_neg h
  exact ⟨_, hrecv, recv_eq_some_iff.mp hrecv⟩

end TokenChan

/-- `make(chan α, cap)` with `values` in it. -/
structure BufChan (α : Type*) (cap : ℕ) where
  values : List α
  length_le : values.length ≤ cap

namespace BufChan

variable {α : Type*} {cap : ℕ} {c c' : BufChan α cap} {a : α}

/-- `make(chan α, cap)`. -/
def empty : BufChan α cap := ⟨[], Nat.zero_le cap⟩

/-- `c <- a`, `none` while the channel is full. -/
def send (c : BufChan α cap) (a : α) : Option (BufChan α cap) :=
  if h : c.values.length < cap then
    some ⟨c.values ++ [a], by rw [List.length_append, List.length_singleton]; omega⟩
  else none

/-- `<-c`, `none` while the channel is empty. -/
def recv : BufChan α cap → Option (α × BufChan α cap)
  | ⟨[], _⟩ => none
  | ⟨a :: rest, h⟩ => some (a, ⟨rest, Nat.le_of_succ_le h⟩)

@[simp] theorem values_empty : (empty : BufChan α cap).values = [] := rfl

theorem exists_recv (h : c.values ≠ []) : ∃ a c', c.recv = some (a, c') := by
  rcases c with ⟨_ | ⟨b, rest⟩, hlen⟩
  · exact absurd rfl h
  · exact ⟨b, _, rfl⟩

end BufChan

end YulongHids.Golang
