/-
# The ChaCha block function

A keystream generator: a key of eight words and a block counter are mixed by twelve rounds into
sixteen words of output.  Each block depends on nothing but the key and its number, so the
stream can be entered anywhere.
-/

namespace ChipVm.ChaCha

/-- The sixteen words that the rounds mix. -/
abbrev State := Vector UInt32 16

/-- The words that a key contributes to every block. -/
abbrev Key := Vector UInt32 8

/-- `w` rotated to the left by `k` bits, for `k` from 1 to 31. -/
def rotateLeft (w k : UInt32) : UInt32 :=
  (w <<< k) ||| (w >>> (32 - k))

/-- Mixes the four words at the given places. -/
def quarterRound (s : State) (a b c d : Fin 16) : State :=
  let wa := s[a.val] + s[b.val]
  let wd := rotateLeft (s[d.val] ^^^ wa) 16
  let wc := s[c.val] + wd
  let wb := rotateLeft (s[b.val] ^^^ wc) 12
  let wa := wa + wb
  let wd := rotateLeft (wd ^^^ wa) 8
  let wc := wc + wd
  let wb := rotateLeft (wb ^^^ wc) 7
  (((s.set a.val wa a.isLt).set b.val wb b.isLt).set c.val wc c.isLt).set d.val wd d.isLt

/-- One round over the columns and one over the diagonals of the four by four square of words. -/
def doubleRound (s : State) : State :=
  let s := quarterRound s 0 4 8 12
  let s := quarterRound s 1 5 9 13
  let s := quarterRound s 2 6 10 14
  let s := quarterRound s 3 7 11 15
  let s := quarterRound s 0 5 10 15
  let s := quarterRound s 1 6 11 12
  let s := quarterRound s 2 7 8 13
  quarterRound s 3 4 9 14

/-- What the rounds start from: the constant `expand 32-byte k`, the key, the low and the high
word of the block counter, and a zero nonce. -/
def start (key : Key) (block : Nat) : State :=
  #v[0x61707865, 0x3320646e, 0x79622d32, 0x6b206574,
    key[0], key[1], key[2], key[3],
    key[4], key[5], key[6], key[7],
    UInt32.ofNat block, UInt32.ofNat (block / UInt32.size), 0, 0]

/-- The block of keystream with the given number: twelve rounds, and the start added once
more. -/
def block (key : Key) (number : Nat) : State :=
  let initial := start key number
  let mixed := doubleRound (doubleRound (doubleRound
    (doubleRound (doubleRound (doubleRound initial)))))
  mixed.zipWith (· + ·) initial

/-- The word at a given place of the keystream. -/
def word (key : Key) (position : Nat) : UInt32 :=
  (block key (position / 16)).get (Fin.ofNat 16 position)

end ChipVm.ChaCha
