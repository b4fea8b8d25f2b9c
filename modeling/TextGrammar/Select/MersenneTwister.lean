import TextGrammar.Select.RandomSource

/-!
# The Mersenne twister

A source of random choices that is determined by its seed: 624 words of 32 bits that are renewed
together by a linear recurrence and tempered one by one as they are drawn.

## Main definitions

* `MersenneTwister` — the words and how many of them have been drawn.
* `MersenneTwister.ofSeed` — the state for a seed.
* `MersenneTwister.next` — the next word.
-/

namespace TextGrammar

/-- The words and how many of them have been drawn. -/
structure MersenneTwister where
  /-- The words, 624 of them. -/
  words : Array UInt32
  /-- How many words have been drawn since they were renewed. -/
  drawn : Nat

namespace MersenneTwister

def size : Nat := 624

/-- A word of an array, zero outside it. -/
def word (words : Array UInt32) (i : Nat) : UInt32 := words.getD i 0

/-- A word with its high bits folded into its low ones. -/
def fold (x : UInt32) : UInt32 := x ^^^ (x >>> 30)

/-- The words that a single number spreads to. -/
def spread (seed : UInt32) : Array UInt32 :=
  (List.range (size - 1)).foldl
    (fun words i => words.push (1812433253 * fold (word words i) + UInt32.ofNat (i + 1)))
    #[seed]

/-- The place after `i` in a round through the places `1`, …, `size - 1`; the last word is copied to
the front when a round ends. -/
def advance (words : Array UInt32) (i : Nat) : Array UInt32 × Nat :=
  if i + 1 ≥ size then (words.setIfInBounds 0 (word words (size - 1)), 1) else (words, i + 1)

/-- Mixes the words of a key into the words of a state, at most `size` steps or as many as the key
is long; ends with the place reached. -/
def mixKey (key : Array UInt32) (words : Array UInt32) : Array UInt32 × Nat :=
  let (words, i, _) := (List.range (max size key.size)).foldl
    (fun (words, i, j) _ =>
      let mixed := (word words i ^^^ (fold (word words (i - 1)) * 1664525)) + word key j
        + UInt32.ofNat j
      let (words, i) := advance (words.setIfInBounds i mixed) i
      (words, i, if j + 1 ≥ key.size then 0 else j + 1))
    (words, 1, 0)
  (words, i)

/-- Mixes the words of a state among themselves, from a place on. -/
def mixPlaces (words : Array UInt32) (i : Nat) : Array UInt32 :=
  ((List.range (size - 1)).foldl
    (fun (words, i) _ =>
      let mixed := (word words i ^^^ (fold (word words (i - 1)) * 1566083941)) - UInt32.ofNat i
      advance (words.setIfInBounds i mixed) i)
    (words, i)).1

/-- The state for a key of words. -/
def ofKey (key : Array UInt32) : MersenneTwister :=
  let (words, i) := mixKey key (spread 19650218)
  ⟨(mixPlaces words i).setIfInBounds 0 0x80000000, size⟩

/-- The words of 32 bits of a number, the lowest first; at most `fuel` of them. -/
def wordsOf : (fuel : Nat) → Nat → List UInt32
  | 0, _ => []
  | fuel + 1, n => if n = 0 then [] else UInt32.ofNat n :: wordsOf fuel (n / Nat.pow 2 32)

/-- The state for a seed; a seed and its negative give the same. -/
def ofSeed (seed : Int) : MersenneTwister :=
  match wordsOf (seed.natAbs + 1) seed.natAbs with
  | [] => ofKey #[0]
  | key => ofKey key.toArray

/-- The word that replaces the one at `i` when the words are renewed. -/
def renewed (words : Array UInt32) (i : Nat) : UInt32 :=
  let y := (word words i &&& 0x80000000) ||| (word words ((i + 1) % size) &&& 0x7fffffff)
  word words ((i + 397) % size) ^^^ (y >>> 1) ^^^ (if y &&& 1 = 1 then 0x9908b0df else 0)

/-- Renews the words, from the first to the last. -/
def renew (words : Array UInt32) : Array UInt32 :=
  (List.range size).foldl (fun words i => words.setIfInBounds i (renewed words i)) words

def temper (y : UInt32) : UInt32 :=
  let y := y ^^^ (y >>> 11)
  let y := y ^^^ ((y <<< 7) &&& 0x9d2c5680)
  let y := y ^^^ ((y <<< 15) &&& 0xefc60000)
  y ^^^ (y >>> 18)

def next (s : MersenneTwister) : UInt32 × MersenneTwister :=
  let s := if s.drawn < size then s else ⟨renew s.words, 0⟩
  (temper (word s.words s.drawn), ⟨s.words, s.drawn + 1⟩)

/-- A number of `bits` bits, between 1 and 32: the high bits of the next word. -/
def nextBits (s : MersenneTwister) (bits : Nat) : Nat × MersenneTwister :=
  let (w, s) := s.next
  (w.toNat >>> (32 - bits), s)

/-- Draws numbers of `bits` bits until one lies below `n`, at most `tries` times, and zero after
that. -/
def belowWithin (n bits : Nat) : (tries : Nat) → MersenneTwister → Nat × MersenneTwister
  | 0, s => (0, s)
  | tries + 1, s =>
    let (r, s) := s.nextBits bits
    if r < n then (r, s) else belowWithin n bits tries s

/-- A number below `n`: numbers with as many bits as `n` are drawn until one is below `n`. More than
half of them are, so a thousand draws are as good as any number of them. -/
def below (s : MersenneTwister) (n : Nat) : Nat × MersenneTwister :=
  belowWithin n (n.log2 + 1) 1000 s

/-- Swaps the texts at the places `i`, `i - 1`, …, `1` with one drawn at or before them. -/
def shuffleFrom : (i : Nat) → Array Text → MersenneTwister → Array Text × MersenneTwister
  | 0, texts, s => (texts, s)
  | i + 1, texts, s =>
    let (j, s) := s.below (i + 2)
    shuffleFrom i (texts.swapIfInBounds (i + 1) j) s

/-- Texts in another order: each place from the last on is swapped with one drawn at or before
it. -/
def shuffle (s : MersenneTwister) (texts : List Text) : List Text × MersenneTwister :=
  let (shuffled, s) := shuffleFrom (texts.length - 1) texts.toArray s
  (shuffled.toList, s)

instance : RandomSource MersenneTwister := ⟨below, shuffle⟩

/-! ## Its laws -/

theorem belowWithin_lt {n : Nat} (hn : 0 < n) (bits tries : Nat) (s : MersenneTwister) :
    (belowWithin n bits tries s).1 < n := by
  induction tries generalizing s with
  | zero => exact hn
  | succ tries ih =>
    unfold belowWithin
    split
    split
    · assumption
    · exact ih _

theorem shuffleFrom_perm (i : Nat) (texts : Array Text) (s : MersenneTwister) :
    (shuffleFrom i texts s).1.toList.Perm texts.toList := by
  induction i generalizing texts s with
  | zero => exact .refl _
  | succ i ih =>
    unfold shuffleFrom
    split
    refine (ih _ _).trans ?_
    unfold Array.swapIfInBounds
    split
    · split
      · exact (Array.swap_perm ..).toList
      · exact .refl _
    · exact .refl _

instance : LawfulRandomSource MersenneTwister where
  below_lt s _ hn := belowWithin_lt hn _ _ s
  shuffle_perm s texts := by
    simpa [RandomSource.shuffle, shuffle] using shuffleFrom_perm _ texts.toArray s

end MersenneTwister

end TextGrammar
