/-!
# Holding memory

Memory is taken in chunks of `2 ^ 20` bytes. One byte of every page is written, never a zero, so that the page is there. Before each chunk the worker looks at its token.
-/

namespace LoadGenerator.Load.Memory

def pageSize : Nat := 4096

def pageCount : Nat := 256

def chunkSize : Nat := pageCount * pageSize

abbrev Chunk := Vector UInt8 chunkSize

/-- The byte for a page: the low bits of its number, made odd. -/
def pageByte (page : Nat) : UInt8 := UInt8.ofNat page ||| 1

/-- The first byte of every page lies in the chunk. -/
theorem page_lt_chunkSize {page : Nat} (h : page < pageCount) : page * pageSize < chunkSize :=
  Nat.mul_lt_mul_of_pos_right h (by decide)

/-- A blank chunk with its first pages touched. -/
def touch : (pages : Nat) → pages ≤ pageCount → Chunk
  | 0, _ => Vector.replicate chunkSize 0
  | page + 1, h => (touch page (Nat.le_of_succ_le h)).set (page * pageSize) (pageByte page) (page_lt_chunkSize h)

def chunk : Chunk := touch pageCount (Nat.le_refl _)

/-- The chunks taken from chunk `done` on; `cancelled k` tells whether the token is cancelled before chunk `k`. -/
def commitFrom (cancelled : Nat → Bool) (done : Nat) : Nat → List Chunk
  | 0 => []
  | wanted + 1 => if cancelled done then [] else chunk :: commitFrom cancelled (done + 1) wanted

def commit (cancelled : Nat → Bool) (wanted : Nat) : List Chunk := commitFrom cancelled 0 wanted

end LoadGenerator.Load.Memory
