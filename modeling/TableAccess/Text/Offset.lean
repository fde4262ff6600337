import TableAccess.Text.Octets
import TableAccess.Text.Quoted
/-!
# Offsets

A text can be read at an offset, which counts octets of its UTF-8 form.  This goes wrong if the
offset is beyond the end of the text, and for a slice also if it is inside a character.  A loop
goes wrong if one of its iterations does not bring it closer to its end.  What is written with
the definitions of this file fails with the first such misstep.

Main results:

- Theorem `utf8Encode_eq_octets`: the octets of a text are its UTF-8 form.
- Theorem `utf8Decode?_eq_some_iff`: octets are read as the text that has them.
- Theorem `mem_utf8EncodeChar`: no octet of a character beyond ASCII is ASCII.
- Theorems `sliceFrom_append` and `slice_append`: a text can be cut between its characters.
- Theorem `loop_pass`: what a loop does that passes one octet after the other.
-/

namespace TableAccess.Text

/-- What can go wrong. -/
inductive Misstep where
  /-- An offset is beyond the end of the text. -/
  | outOfBounds
  /-- A slice begins or ends inside a character. -/
  | insideCharacter
  /-- An iteration of a loop makes no progress. -/
  | standstill
deriving DecidableEq, Repr

/-- A result, unless something goes wrong. -/
abbrev Checked (α : Type) := Except Misstep α

/-! ## Access -/

/-- The octets of a text. -/
def octets (s : List Char) : Octets :=
  s.flatMap String.utf8EncodeChar

/-- The octet at an offset, if there is one. -/
def octet? (s : List Char) (i : Nat) : Option UInt8 :=
  (octets s)[i]?

/-- The octet at an offset. -/
def octetAt (s : List Char) (i : Nat) : Checked UInt8 :=
  match octet? s i with
  | some x => .ok x
  | none => .error .outOfBounds

/-- The part of a text from an offset on. -/
def sliceFrom : List Char → Nat → Checked (List Char)
  | s, 0 => .ok s
  | [], _ + 1 => .error .outOfBounds
  | c :: r, i + 1 =>
    if c.utf8Size ≤ i + 1 then sliceFrom r (i + 1 - c.utf8Size) else .error .insideCharacter

/-- The part of a text up to an offset. -/
def sliceTo : List Char → Nat → Checked (List Char)
  | _, 0 => .ok []
  | [], _ + 1 => .error .outOfBounds
  | c :: r, i + 1 =>
    if c.utf8Size ≤ i + 1 then
      (sliceTo r (i + 1 - c.utf8Size)).map (c :: ·)
    else
      .error .insideCharacter

/-- The part of a text between two offsets. -/
def slice (s : List Char) (i j : Nat) : Checked (List Char) :=
  if i ≤ j then do
    let r ← sliceFrom s i
    sliceTo r (j - i)
  else
    .error .outOfBounds

/-- Whether an offset is not inside a character and not beyond the end of a text. -/
def isBoundary (s : List Char) (i : Nat) : Bool :=
  (sliceFrom s i).isOk

/-- The offset at which a text occurs first in another one. -/
def find? (needle : List Char) : List Char → Option Nat
  | [] => if needle.isEmpty then some 0 else none
  | c :: r =>
    if needle.isPrefixOf (c :: r) then some 0 else (find? needle r).map (c.utf8Size + ·)

/-! ## Loops -/

/-- How an iteration of a loop ends. -/
inductive Iteration (σ β : Type) where
  | again (s : σ)
  | stop (result : β)

variable {σ β : Type}

/-- Iterate from a state until an iteration stops.  Every iteration that does not stop has to
make the distance to the end smaller. -/
def loop (distance : σ → Nat) (body : σ → Checked (Iteration σ β)) (s : σ) : Checked β :=
  match body s with
  | .error misstep => .error misstep
  | .ok (.stop result) => .ok result
  | .ok (.again t) => if distance t < distance s then loop distance body t else .error .standstill
termination_by distance s

section Loop

variable {distance : σ → Nat} {body : σ → Checked (Iteration σ β)}

theorem loop_of_stop {s : σ} {result : β} (h : body s = .ok (.stop result)) :
    loop distance body s = .ok result := by
  rw [loop, h]

/-- A loop that goes on is the loop from the next state, which is nearer to the end. -/
theorem loop_of_again {s t : σ} (h : body s = .ok (.again t)) (less : distance t < distance s) :
    loop distance body s = loop distance body t := by
  rw [loop, h]
  exact if_pos less

/-- A loop passes octets one after the other if every iteration passes one of them. -/
theorem loop_pass (stateAt : Nat → σ) {i n : Nat}
    (h : ∀ k < n, body (stateAt (i + k)) = .ok (.again (stateAt (i + k + 1))))
    (less : ∀ k < n, distance (stateAt (i + k + 1)) < distance (stateAt (i + k))) :
    loop distance body (stateAt i) = loop distance body (stateAt (i + n)) := by
  induction n with
  | zero => rfl
  | succ n ih =>
    rw [ih (fun k hk => h k (Nat.lt_succ_of_lt hk)) fun k hk => less k (Nat.lt_succ_of_lt hk)]
    exact loop_of_again (h n (Nat.lt_succ_self n)) (less n (Nat.lt_succ_self n))

end Loop

/-! ## Quoted text -/

/-- An iteration of the search for a closing quote. -/
def afterQuoteStep (s : List Char) (quote : UInt8) (i : Nat) :
    Checked (Iteration Nat (Option Nat)) :=
  if i < utf8Length s then do
    let x ← octetAt s i
    if x = quote then
      if octet? s (i + 1) = some quote then
        pure (.again (i + 2))
      else
        pure (.stop (some (i + 1)))
    else
      pure (.again (i + 1))
  else
    pure (.stop none)

/-- The offset after the closing quote, if there is one; the search begins at `start`, and quotes
that are written twice are passed. -/
def afterQuote (s : List Char) (quote : UInt8) (start : Nat) : Checked (Option Nat) :=
  loop (utf8Length s - ·) (afterQuoteStep s quote) start

/-! ## Octets of texts -/

/-- The octets of a text are those of its characters, in order. -/
theorem octets_cons (c : Char) (r : List Char) :
    octets (c :: r) = String.utf8EncodeChar c ++ octets r :=
  List.flatMap_cons

theorem octets_append (s t : List Char) : octets (s ++ t) = octets s ++ octets t :=
  List.flatMap_append

/-- A text has as many octets as its characters take together. -/
@[simp]
theorem length_octets (s : List Char) : (octets s).length = utf8Length s := by
  induction s with
  | nil => rfl
  | cons c r ih =>
    rw [octets_cons, List.length_append, String.length_utf8EncodeChar, ih, utf8Length_cons]

/-- Octets are listed from an offset on, after those that were listed before. -/
theorem toList_loop (bytes : ByteArray) (i : Nat) (r : Octets) :
    ByteArray.toList.loop bytes i r = r.reverse ++ bytes.data.toList.drop i := by
  fun_induction ByteArray.toList.loop bytes i r with
  | case1 i r h ih =>
    have hi : i < bytes.data.toList.length := by simpa using h
    rw [ih, List.drop_eq_getElem_cons hi]
    simp [ByteArray.get!, h]
  | case2 i r h =>
    rw [List.drop_eq_nil_of_le (by simpa using Nat.le_of_not_lt h)]
    simp

/-- The list of an array of octets is that of its data. -/
theorem toList_eq_data (bytes : ByteArray) : bytes.toList = bytes.data.toList := by
  rw [ByteArray.toList, toList_loop, List.reverse_nil, List.nil_append, List.drop_zero]

/-- The octets of a text are its UTF-8 form. -/
theorem utf8Encode_eq_octets (s : String) : utf8Encode s = octets s.toList := by
  have hbytes : s.toUTF8 = s.toList.utf8Encode := by
    rw [← String.toByteArray_ofList, String.ofList_toList]
    rfl
  rw [utf8Encode, hbytes, List.utf8Encode, toList_eq_data]
  simp [octets]

/-- Octets are read as the text whose UTF-8 form they are. -/
theorem utf8Decode?_eq_some_iff {octets : Octets} {s : String} :
    utf8Decode? octets = some s ↔ utf8Encode s = octets := by
  rw [utf8Encode, toList_eq_data, utf8Decode?, String.fromUTF8?]
  constructor
  · intro h
    split at h
    · cases h
      rfl
    · cases h
  · rintro rfl
    exact dif_pos s.isValidUTF8

/-- Different texts have different octets. -/
theorem utf8Encode_injective : Function.Injective utf8Encode := by
  intro s t h
  have hread := utf8Decode?_eq_some_iff.2 h
  rw [utf8Decode?_eq_some_iff.2 rfl] at hread
  exact (Option.some.inj hread).symm

/-- After a part of a text the octets are those of the rest. -/
theorem octet?_append (a r : List Char) (k : Nat) :
    octet? (a ++ r) (utf8Length a + k) = octet? r k := by
  rw [octet?, octets_append, List.getElem?_append_right (by simp)]
  simp [octet?]

/-- The octet where a front ends is the first one of the rest. -/
theorem octet?_append_zero (a r : List Char) : octet? (a ++ r) (utf8Length a) = octet? r 0 :=
  octet?_append a r 0

/-! ## Octets of characters -/

/-- The ASCII characters are those of one octet. -/
theorem utf8Size_eq_one_iff (c : Char) : c.utf8Size = 1 ↔ c.toNat < 128 := by
  rw [Char.utf8Size_eq_one_iff, UInt32.le_iff_toNat_le]
  exact Nat.lt_succ_iff.symm

/-- An octet above the ASCII range stays above it. -/
theorem le_toNat_ofNat {n : Nat} (low : 128 ≤ n) (high : n < 256) :
    128 ≤ (UInt8.ofNat n).toNat := by
  rw [UInt8.toNat_ofNat', Nat.mod_eq_of_lt high]
  exact low

/-- An ASCII character is its only octet. -/
theorem toNat_toUInt8 {c : Char} (h : c.toNat < 128) : c.toUInt8.toNat = c.toNat := by
  have hmod : c.toUInt8.toNat = c.toNat % 256 := rfl
  omega

/-- An octet of a character is the character itself if it is ASCII, and no ASCII otherwise. -/
theorem mem_utf8EncodeChar {c : Char} {x : UInt8} (h : x ∈ String.utf8EncodeChar c) :
    (c.toNat < 128 ∧ x = c.toUInt8) ∨ (128 ≤ c.toNat ∧ 128 ≤ x.toNat) := by
  have hcode : c.val.toNat = c.toNat := rfl
  unfold String.utf8EncodeChar at h
  simp only [hcode] at h
  by_cases hascii : c.toNat ≤ 127
  · rw [if_pos hascii] at h
    exact .inl ⟨by omega, List.mem_singleton.1 h⟩
  · refine .inr ⟨by omega, ?_⟩
    rw [if_neg hascii] at h
    split at h
    · simp only [List.mem_cons, List.not_mem_nil, or_false] at h
      rcases h with rfl | rfl <;> exact le_toNat_ofNat (by omega) (by omega)
    · split at h
      · simp only [List.mem_cons, List.not_mem_nil, or_false] at h
        rcases h with rfl | rfl | rfl <;> exact le_toNat_ofNat (by omega) (by omega)
      · simp only [List.mem_cons, List.not_mem_nil, or_false] at h
        rcases h with rfl | rfl | rfl | rfl <;> exact le_toNat_ofNat (by omega) (by omega)

/-- The octet of an ASCII character is no octet of another character. -/
theorem eq_toUInt8_iff {c d : Char} {x : UInt8} (h : x ∈ String.utf8EncodeChar c)
    (ascii : d.toNat < 128) : x = d.toUInt8 ↔ c = d := by
  rcases mem_utf8EncodeChar h with ⟨hc, rfl⟩ | ⟨hc, hx⟩
  · constructor
    · intro heq
      apply Char.toNat_inj.1
      rw [← toNat_toUInt8 hc, ← toNat_toUInt8 ascii, heq]
    · intro heq
      rw [heq]
  · constructor
    · intro heq
      rw [heq, toNat_toUInt8 ascii] at hx
      omega
    · intro heq
      rw [heq] at hc
      omega

/-- A test that only ASCII passes can be made on any octet of a character. -/
theorem test_ofUInt8 {p : Char → Bool} (ascii : ∀ c, p c = true → c.toNat < 128) {c : Char}
    {x : UInt8} (h : x ∈ String.utf8EncodeChar c) : p (Char.ofUInt8 x) = p c := by
  have hcode : (Char.ofUInt8 x).toNat = x.toNat := UInt8.toNat_toUInt32 x
  rcases mem_utf8EncodeChar h with ⟨hc, rfl⟩ | ⟨hc, hx⟩
  · rw [toNat_toUInt8 hc] at hcode
    rw [Char.toNat_inj.1 hcode]
  · have hfalse : ∀ d : Char, 128 ≤ d.toNat → p d = false := by
      intro d hd
      cases hp : p d with
      | false => rfl
      | true =>
        have hlt := ascii d hp
        omega
    rw [hfalse c hc, hfalse _ (hcode ▸ hx)]

/-- At an offset inside a character there is one of its octets. -/
theorem exists_octet (c : Char) (r : List Char) {k : Nat} (hk : k < c.utf8Size) :
    ∃ x ∈ String.utf8EncodeChar c, octet? (c :: r) k = some x := by
  have hlength : k < (String.utf8EncodeChar c).length := by
    rw [String.length_utf8EncodeChar]
    exact hk
  refine ⟨(String.utf8EncodeChar c)[k], List.getElem_mem hlength, ?_⟩
  rw [octet?, octets_cons, List.getElem?_append_left hlength, List.getElem?_eq_getElem hlength]

/-- An octet that is there is found. -/
theorem octetAt_of_octet? {s : List Char} {i : Nat} {x : UInt8} (h : octet? s i = some x) :
    octetAt s i = .ok x := by
  rw [octetAt, h]

/-- Whether a text begins with an ASCII character is told by its first octet. -/
theorem octet?_zero_eq_iff (s : List Char) {d : Char} (ascii : d.toNat < 128) :
    octet? s 0 = some d.toUInt8 ↔ s.head? = some d := by
  cases s with
  | nil => simp [octet?]
  | cons c r =>
    obtain ⟨x, hx, hoctet⟩ := exists_octet c r c.utf8Size_pos
    rw [hoctet, Option.some.injEq, List.head?_cons, Option.some.injEq]
    exact eq_toUInt8_iff hx ascii

/-- What is told by ASCII characters is told by the first octet. -/
theorem octet?_zero_any {p : Char → Bool} (ascii : ∀ c, p c = true → c.toNat < 128)
    (s : List Char) : ((octet? s 0).any fun x => p (Char.ofUInt8 x)) = s.head?.any p := by
  cases s with
  | nil => rfl
  | cons c r =>
    obtain ⟨x, hx, hoctet⟩ := exists_octet c r c.utf8Size_pos
    rw [hoctet]
    exact test_ofUInt8 ascii hx

/-! ## Slices -/

/-- A text that is not empty takes at least one octet. -/
theorem exists_utf8Length_cons (c : Char) (r : List Char) : ∃ n, utf8Length (c :: r) = n + 1 := by
  have hpos := c.utf8Size_pos
  refine ⟨c.utf8Size + utf8Length r - 1, ?_⟩
  rw [utf8Length_cons]
  omega

/-- An offset beyond a part of a text is an offset into the rest. -/
theorem sliceFrom_append_add (a r : List Char) (k : Nat) :
    sliceFrom (a ++ r) (utf8Length a + k) = sliceFrom r k := by
  induction a with
  | nil => rw [List.nil_append, utf8Length_nil, Nat.zero_add]
  | cons c a ih =>
    obtain ⟨n, hn⟩ := exists_utf8Length_cons c a
    rw [utf8Length_cons] at hn
    have hsucc : c.utf8Size + utf8Length a + k = n + k + 1 := by omega
    have hrest : n + k + 1 - c.utf8Size = utf8Length a + k := by omega
    rw [utf8Length_cons, hsucc, List.cons_append, sliceFrom, if_pos (by omega), hrest, ih]

/-- A text can be cut between two characters. -/
theorem sliceFrom_append (a r : List Char) : sliceFrom (a ++ r) (utf8Length a) = .ok r := by
  have hcut := sliceFrom_append_add a r 0
  rw [sliceFrom] at hcut
  exact hcut

/-- A text cannot be cut inside of a character. -/
theorem sliceFrom_inside (a r : List Char) {c : Char} {k : Nat} (hpos : 0 < k)
    (hk : k < c.utf8Size) :
    sliceFrom (a ++ c :: r) (utf8Length a + k) = .error .insideCharacter := by
  obtain ⟨n, rfl⟩ := Nat.exists_eq_add_of_lt hpos
  rw [sliceFrom_append_add, Nat.zero_add, sliceFrom, if_neg (by omega)]

/-- A text that is cut where a front ends gives the front. -/
theorem sliceTo_append (a r : List Char) : sliceTo (a ++ r) (utf8Length a) = .ok a := by
  induction a with
  | nil =>
    rw [List.nil_append, utf8Length_nil, sliceTo]
  | cons c a ih =>
    obtain ⟨n, hn⟩ := exists_utf8Length_cons c a
    rw [utf8Length_cons] at hn
    rw [utf8Length_cons, hn, List.cons_append, sliceTo, if_pos (by omega), ← hn,
      Nat.add_sub_cancel_left, ih]
    rfl

/-- A part of a text can be cut out between two characters. -/
theorem slice_append (a m r : List Char) :
    slice (a ++ (m ++ r)) (utf8Length a) (utf8Length a + utf8Length m) = .ok m := by
  rw [slice, if_pos (Nat.le_add_right _ _), sliceFrom_append, Nat.add_sub_cancel_left]
  exact sliceTo_append m r

/-! ## Loops over octets -/

section Pass

variable {distance : σ → Nat} {body : σ → Checked (Iteration σ β)} {s : List Char}

/-- A loop passes a character if every iteration passes one of its octets. -/
theorem loop_pass_char (stateAt : Nat → σ) {a r : List Char} {c : Char} (text : s = a ++ c :: r)
    (distance_eq : ∀ i, distance (stateAt i) = utf8Length s - i)
    (h : ∀ i, i < utf8Length s → (∃ x ∈ String.utf8EncodeChar c, octet? s i = some x) →
      body (stateAt i) = .ok (.again (stateAt (i + 1)))) :
    loop distance body (stateAt (utf8Length a)) =
      loop distance body (stateAt (utf8Length a + c.utf8Size)) := by
  have hlength : utf8Length s = utf8Length a + (c.utf8Size + utf8Length r) := by
    rw [text, utf8Length_append, utf8Length_cons]
  apply loop_pass
  · intro k hk
    obtain ⟨x, hx, hoctet⟩ := exists_octet c r hk
    refine h _ (by omega) ⟨x, hx, ?_⟩
    rw [text, octet?_append, hoctet]
  · intro k hk
    rw [distance_eq, distance_eq]
    omega

end Pass

/-! ## Closing quotes -/

/-- An ASCII character takes one octet, and the next octet is that of what follows. -/
theorem octet?_append_ascii {d : Char} (ascii : d.toNat < 128) (a r : List Char) :
    octet? (a ++ d :: r) (utf8Length a + 1) = octet? r 0 := by
  have hsize : d.utf8Size = 1 := (utf8Size_eq_one_iff d).2 ascii
  have hcut := octet?_append_zero (a ++ [d]) r
  rw [utf8Length_append, utf8Length_cons, utf8Length_nil, hsize, List.append_assoc] at hcut
  exact hcut

/-- A front with one more character has more octets. -/
theorem lt_utf8Length_append_cons (a : List Char) (c : Char) (r : List Char) :
    utf8Length a < utf8Length (a ++ c :: r) := by
  have hpos := c.utf8Size_pos
  rw [utf8Length_append, utf8Length_cons]
  omega

section AfterQuote

variable {q : Char} (ascii : q.toNat < 128)
include ascii

/-- At a quote the search goes on after a second one and stops otherwise. -/
theorem afterQuoteStep_quote (a r : List Char) :
    afterQuoteStep (a ++ q :: r) q.toUInt8 (utf8Length a) =
      .ok (if r.head? = some q then .again (utf8Length a + 2)
        else .stop (some (utf8Length a + 1))) := by
  have hoctet : octet? (a ++ q :: r) (utf8Length a) = some q.toUInt8 := by
    rw [octet?_append_zero, octet?_zero_eq_iff _ ascii]
    rfl
  have hnext := octet?_zero_eq_iff r ascii
  rw [afterQuoteStep, if_pos (lt_utf8Length_append_cons a q r), octetAt_of_octet? hoctet,
    octet?_append_ascii ascii]
  change (if q.toUInt8 = q.toUInt8 then _ else _) = _
  rw [if_pos rfl]
  by_cases htwice : r.head? = some q
  · rw [if_pos (hnext.2 htwice), if_pos htwice]
    rfl
  · rw [if_neg fun heq => htwice (hnext.1 heq), if_neg htwice]
    rfl

/-- Other characters than the quote are passed. -/
theorem afterQuote_pass {c : Char} (other : c ≠ q) (a r : List Char) :
    afterQuote (a ++ c :: r) q.toUInt8 (utf8Length a) =
      afterQuote ((a ++ [c]) ++ r) q.toUInt8 (utf8Length (a ++ [c])) := by
  rw [utf8Length_append, utf8Length_cons, utf8Length_nil, Nat.add_zero, List.append_assoc]
  refine loop_pass_char id rfl (fun i => rfl) fun i bound ⟨x, hx, hoctet⟩ => ?_
  rw [id, afterQuoteStep, if_pos bound, octetAt_of_octet? hoctet]
  apply if_neg
  rw [eq_toUInt8_iff hx ascii]
  exact other

omit ascii in
/-- At the end of the text no quote is found. -/
theorem afterQuote_end (a : List Char) (quote : UInt8) :
    afterQuote a quote (utf8Length a) = .ok none := by
  apply loop_of_stop
  rw [afterQuoteStep, if_neg (Nat.lt_irrefl _)]
  rfl

/-- The search for a closing quote agrees with the reading of the quoted text. -/
theorem afterQuote_eq (a r : List Char) :
    afterQuote (a ++ r) q.toUInt8 (utf8Length a) =
      .ok ((Quoted.split q r).map fun p => utf8Length a + utf8Length p.1 + 1) := by
  have hsize : q.utf8Size = 1 := (utf8Size_eq_one_iff q).2 ascii
  fun_induction Quoted.split q r generalizing a with
  | case1 =>
    rw [List.append_nil]
    exact afterQuote_end a _
  | case2 => exact loop_of_stop (afterQuoteStep_quote ascii a [])
  | case3 c other =>
    rw [afterQuote_pass ascii other, List.append_nil, afterQuote_end]
    rfl
  | case4 r ih =>
    have hstep := afterQuoteStep_quote ascii a (q :: r)
    rw [List.head?_cons, if_pos rfl] at hstep
    have hlength : utf8Length (a ++ [q, q]) = utf8Length a + 2 := by
      simp [utf8Length_append, hsize]
    have hrest := ih (a ++ [q, q])
    rw [hlength, List.append_assoc] at hrest
    rw [afterQuote, loop_of_again hstep]
    · refine hrest.trans ?_
      cases Quoted.split q r with
      | none => rfl
      | some p =>
        simp only [Option.map_some, utf8Length_cons, hsize]
        congr 2
        omega
    · have hlt := lt_utf8Length_append_cons a q (q :: r)
      omega
  | case5 d r other =>
    apply loop_of_stop
    rw [afterQuoteStep_quote ascii a (d :: r), List.head?_cons, if_neg]
    · rfl
    · intro heq
      exact other (Option.some.inj heq)
  | case6 c d r other ih =>
    rw [afterQuote_pass ascii other, ih (a ++ [c])]
    cases Quoted.split q (d :: r) with
    | none => rfl
    | some p =>
      simp only [Option.map_some, utf8Length_append, utf8Length_cons, utf8Length_nil]
      congr 2
      omega

end AfterQuote

end TableAccess.Text
