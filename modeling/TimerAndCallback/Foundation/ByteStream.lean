import Mathlib

/-! # Byte streams and byte buffers

A writer appends bytes to a stream and a reader takes bytes off its front. A
writer and a reader transfer a value when the reader delivers it from the bytes
the writer appended, whatever follows them. Transfers compose: readers run one
after another deliver what the writers appended one after another. A buffer is
addressed by offsets instead.
-/

namespace ByteStream

universe u

/-- The low `width` bytes of a number, least significant first. -/
def littleEndian : Nat → Nat → List UInt8
  | 0, _ => []
  | width + 1, value => UInt8.ofNat value :: littleEndian width (value / 256)

/-- The number with these bytes, least significant first. -/
def ofLittleEndian : List UInt8 → Nat
  | [] => 0
  | byte :: bytes => byte.toNat + 256 * ofLittleEndian bytes

@[simp] theorem length_littleEndian (width value : Nat) :
    (littleEndian width value).length = width := by
  induction width generalizing value with
  | zero => rfl
  | succ width ih => rw [littleEndian, List.length_cons, ih]

/-- The bytes determine the number up to what they have no room for. -/
theorem ofLittleEndian_littleEndian (width value : Nat) :
    ofLittleEndian (littleEndian width value) = value % 256 ^ width := by
  induction width generalizing value with
  | zero => rw [littleEndian, ofLittleEndian, pow_zero, Nat.mod_one]
  | succ width ih =>
      have lowest : (UInt8.ofNat value).toNat = value % 256 := UInt8.toNat_ofNat'
      rw [littleEndian, ofLittleEndian, ih, lowest, pow_succ', Nat.mod_mul]

/-- Bytes are recovered from the number they make. -/
theorem littleEndian_ofLittleEndian (bytes : List UInt8) :
    littleEndian bytes.length (ofLittleEndian bytes) = bytes := by
  induction bytes with
  | nil => rfl
  | cons byte bytes ih =>
      have small := byte.toNat_lt
      have high : (byte.toNat + 256 * ofLittleEndian bytes) / 256 = ofLittleEndian bytes := by
        omega
      have low : UInt8.ofNat (byte.toNat + 256 * ofLittleEndian bytes) = byte := by
        apply UInt8.toNat_inj.mp
        rw [UInt8.toNat_ofNat']
        omega
      rw [List.length_cons, ofLittleEndian, littleEndian, high, low, ih]

/-- Bytes denote a number within their width. -/
theorem ofLittleEndian_lt (bytes : List UInt8) : ofLittleEndian bytes < 256 ^ bytes.length := by
  rw [← littleEndian_ofLittleEndian bytes, ofLittleEndian_littleEndian, length_littleEndian]
  exact Nat.mod_lt _ (Nat.pow_pos (by decide))

/-- A byte masked out of a word and cut to a byte is, moved back, what the mask left. -/
theorem byte_restored (value : BitVec 32) (place : Nat) :
    (((value &&& (0xFF#32 <<< place)) >>> place).setWidth 8).setWidth 32 <<< place =
      value &&& (0xFF#32 <<< place) := by
  have byte : ∀ index, (0xFF#32).getLsbD index = decide (index < 8) := by
    intro index
    rw [show 0xFF#32 = (BitVec.allOnes 8).setWidth 32 by decide, BitVec.getLsbD_setWidth,
      BitVec.getLsbD_allOnes]
    by_cases inside : index < 8
    · simp only [inside, show index < 32 by omega, decide_true, Bool.and_self]
    · simp only [inside, decide_false, Bool.and_false]
  apply BitVec.eq_of_getLsbD_eq
  intro index bound
  by_cases before : index < place
  · simp [before]
  · by_cases inside : index - place < 8
    · have same : place + (index - place) = index := by omega
      simp [before, inside, same, bound]
    · simp [before, inside, byte]

/-- The C string at the front of these bytes: what comes before the first zero. -/
def cString (bytes : List UInt8) : List UInt8 := bytes.takeWhile (· ≠ 0)

/-- The text of a string ends before the first zero. -/
theorem zero_notMem_cString (bytes : List UInt8) : 0 ∉ cString bytes := by
  intro member
  exact absurd (List.mem_takeWhile_imp member) (by decide)

/-- A string is its own text when it holds no zero. -/
theorem cString_eq_self_iff {bytes : List UInt8} : cString bytes = bytes ↔ 0 ∉ bytes := by
  constructor
  · intro same
    exact same ▸ zero_notMem_cString bytes
  · intro absent
    refine List.takeWhile_eq_self_iff.mpr fun byte member => ?_
    exact decide_eq_true fun zero => absent (zero ▸ member)

/-- A computation that takes bytes off the front of a stream. It answers `none`
where the stream ends before the bytes it asks for. -/
abbrev Reader := StateT (List UInt8) Option

/-- Take `count` bytes. -/
def take (count : Nat) : Reader (List UInt8) := fun stream =>
  if count ≤ stream.length then some (stream.take count, stream.drop count) else none

section Transfers

variable {Value Result : Type} {bytes more : List UInt8}

/-- The writer appends exactly these bytes to any stream. -/
def Appends (writer : List UInt8 → List UInt8) (bytes : List UInt8) : Prop :=
  ∀ stream, writer stream = stream ++ bytes

/-- The reader takes exactly these bytes off any stream that starts with them, and
answers this value. -/
def Delivers (reader : Reader Value) (bytes : List UInt8) (value : Value) : Prop :=
  ∀ following, reader.run (bytes ++ following) = some (value, following)

/-- What the writer appends, the reader takes off again, with this answer. -/
def Transfers (writer : List UInt8 → List UInt8) (reader : Reader Value) (value : Value) : Prop :=
  ∃ bytes, Appends writer bytes ∧ Delivers reader bytes value

/-- Two writers in a row append the bytes of both. -/
theorem Appends.comp {writer next : List UInt8 → List UInt8} (first : Appends writer bytes)
    (second : Appends next more) : Appends (next ∘ writer) (bytes ++ more) := by
  intro stream
  rw [Function.comp_apply, second, first, List.append_assoc]

private theorem delivers_pure (value : Value) : Delivers (pure value) [] value := fun _ => rfl

/-- Taking bytes splits the stream behind them. -/
theorem take_eq_some_iff {count : Nat} {stream answer rest : List UInt8} :
    (take count).run stream = some (answer, rest) ↔
      answer.length = count ∧ stream = answer ++ rest := by
  rw [StateT.run, take, Option.ite_none_right_eq_some, Option.some.injEq, Prod.mk.injEq]
  constructor
  · rintro ⟨enough, rfl, rfl⟩
    exact ⟨List.length_take_of_le enough, (List.take_append_drop count stream).symm⟩
  · rintro ⟨rfl, rfl⟩
    rw [List.length_append]
    exact ⟨Nat.le_add_right _ _, List.take_left, List.drop_left⟩

/-- A reader of as many bytes as there are delivers them. -/
theorem delivers_take {count : Nat} (length : bytes.length = count) :
    Delivers (take count) bytes bytes := fun _ => take_eq_some_iff.mpr ⟨length, rfl⟩

/-- The second reader finds what the first one left. -/
theorem Delivers.bind {reader : Reader Value} {next : Value → Reader Result} {value : Value}
    {result : Result} (first : Delivers reader bytes value)
    (second : Delivers (next value) more result) :
    Delivers (reader >>= next) (bytes ++ more) result := by
  intro following
  rw [StateT.run_bind, List.append_assoc, first]
  exact second following

/-- A reader whose answer is worked on afterwards. -/
theorem Delivers.map {reader : Reader Value} {value : Value}
    (delivers : Delivers reader bytes value) (work : Value → Result) :
    Delivers (reader >>= fun answer => pure (work answer)) bytes (work value) := by
  have composed : Delivers (reader >>= fun answer => pure (work answer)) (bytes ++ [])
      (work value) := delivers.bind (delivers_pure (work value))
  rwa [List.append_nil] at composed

/-- What a reader of `count` bytes delivers from given bytes. -/
theorem delivers_take_map_iff {count : Nat} {work : List UInt8 → Value} {value : Value} :
    Delivers (take count >>= fun buffer => pure (work buffer)) bytes value ↔
      bytes.length = count ∧ work bytes = value := by
  constructor
  · intro delivers
    have alone := delivers []
    rw [List.append_nil, StateT.run_bind] at alone
    obtain ⟨⟨buffer, rest⟩, taken, answered⟩ := Option.bind_eq_some_iff.mp alone
    cases answered
    obtain ⟨length, same⟩ := take_eq_some_iff.mp taken
    rw [List.append_nil] at same
    subst same
    exact ⟨length, rfl⟩
  · rintro ⟨length, rfl⟩
    exact (delivers_take length).map work

/-- The rule of composition: one writer after another, and one reader after another. -/
theorem Transfers.bind {writer next : List UInt8 → List UInt8} {reader : Reader Value}
    {readNext : Value → Reader Result} {value : Value} {result : Result}
    (first : Transfers writer reader value) (second : Transfers next (readNext value) result) :
    Transfers (next ∘ writer) (reader >>= readNext) result := by
  obtain ⟨bytes, appends, delivers⟩ := first
  obtain ⟨more, appendsNext, deliversNext⟩ := second
  exact ⟨bytes ++ more, appends.comp appendsNext, delivers.bind deliversNext⟩

/-- A value that is transferred can be worked on by its reader. -/
theorem Transfers.map {writer : List UInt8 → List UInt8} {reader : Reader Value} {value : Value}
    (transfers : Transfers writer reader value) (work : Value → Result) :
    Transfers writer (reader >>= fun answer => pure (work answer)) (work value) := by
  obtain ⟨bytes, appends, delivers⟩ := transfers
  exact ⟨bytes, appends, delivers.map work⟩

/-- A reader answers one value for what a writer wrote. -/
theorem Transfers.iff {writer : List UInt8 → List UInt8} {reader : Reader Value}
    {value wanted : Value} (transfers : Transfers writer reader value) :
    Transfers writer reader wanted ↔ value = wanted := by
  constructor
  · rintro ⟨bytes, appends, delivers⟩
    obtain ⟨same, appendsSame, deliversValue⟩ := transfers
    have written : same = bytes := (appendsSame []).symm.trans (appends [])
    subst written
    have answers := (deliversValue []).symm.trans (delivers [])
    rw [Option.some.injEq, Prod.mk.injEq] at answers
    exact answers.1
  · rintro rfl
    exact transfers

/-- The rule for sequences: readers for the kinds of a list of items deliver what the
items' writers wrote. -/
theorem transfers_list {Item Kind : Type} {writer : Item → List UInt8 → List UInt8}
    {reader : Kind → Reader Value} {kind : Item → Kind} {image : Item → Value}
    (transfers : ∀ item, Transfers (writer item) (reader (kind item)) (image item))
    (items : List Item) :
    Transfers (fun stream => items.foldl (fun written item => writer item written) stream)
      ((items.map kind).mapM reader) (items.map image) := by
  induction items with
  | nil => exact ⟨[], fun stream => (List.append_nil stream).symm, delivers_pure []⟩
  | cons item items ih =>
      let readRest : Value → Reader (List Value) := fun answer =>
        (items.map kind).mapM reader >>= fun answers => pure (answer :: answers)
      have rest : Transfers (fun stream => items.foldl (fun written item => writer item written)
          stream) (readRest (image item)) (image item :: items.map image) :=
        ih.map (image item :: ·)
      rw [List.map_cons, List.mapM_cons, List.map_cons]
      exact (transfers item).bind rest

end Transfers

/-- A region of memory, by offset. -/
abbrev Buffer := Nat → UInt8

namespace Buffer

variable {offset other count : Nat} {bytes : List UInt8}

/-- Copy bytes to an offset. -/
def store (buffer : Buffer) (offset : Nat) (bytes : List UInt8) : Buffer := fun index =>
  if index < offset then buffer index else (bytes[index - offset]?).getD (buffer index)

/-- Copy bytes from an offset. -/
def load (buffer : Buffer) (offset count : Nat) : List UInt8 :=
  (List.range count).map fun index => buffer (offset + index)

@[simp] theorem length_load (buffer : Buffer) (offset count : Nat) :
    (buffer.load offset count).length = count := by
  rw [load, List.length_map, List.length_range]

/-- Storing changes nothing before the offset. -/
theorem store_of_lt (buffer : Buffer) (bytes : List UInt8) {index : Nat} (before : index < offset) :
    buffer.store offset bytes index = buffer index := if_pos before

/-- Storing changes nothing past the bytes. -/
theorem store_of_le (buffer : Buffer) {index : Nat} (past : offset + bytes.length ≤ index) :
    buffer.store offset bytes index = buffer index := by
  have outside : ¬ index < offset := by omega
  rw [store, if_neg outside, List.getElem?_eq_none (by omega), Option.getD_none]

/-- Bytes copied right behind others are copied with them. -/
theorem store_store (buffer : Buffer) (bytes more : List UInt8)
    (behind : other = offset + bytes.length) :
    (buffer.store offset bytes).store other more = buffer.store offset (bytes ++ more) := by
  subst behind
  funext index
  rcases Nat.lt_or_ge index (offset + bytes.length) with inside | past
  · rw [store_of_lt _ _ inside]
    unfold store
    rcases Nat.lt_or_ge index offset with before | within
    · rw [if_pos before, if_pos before]
    · rw [if_neg (Nat.not_lt.mpr within), if_neg (Nat.not_lt.mpr within),
        List.getElem?_append_left (by omega)]
  · have notBefore : ¬ index < offset := by omega
    rw [store, if_neg (Nat.not_lt.mpr past), store_of_le buffer past, store, if_neg notBefore,
      List.getElem?_append_right (by omega), Nat.sub_sub]

/-- What was copied to an offset is read back from it. -/
theorem load_store (buffer : Buffer) (offset : Nat) (bytes : List UInt8) :
    (buffer.store offset bytes).load offset bytes.length = bytes := by
  refine List.ext_getElem (length_load _ _ _) fun index inside bound => ?_
  have notBefore : ¬ offset + index < offset := by omega
  simp only [load, List.getElem_map, List.getElem_range, store, if_neg notBefore,
    Nat.add_sub_cancel_left, List.getElem?_eq_getElem bound, Option.getD_some]

/-- Bytes elsewhere are not written. -/
theorem load_store_apart (buffer : Buffer)
    (apart : other + count ≤ offset ∨ offset + bytes.length ≤ other) :
    (buffer.store offset bytes).load other count = buffer.load other count := by
  refine List.map_congr_left fun index member => ?_
  have inside := List.mem_range.mp member
  rcases apart with before | past
  · exact store_of_lt buffer bytes (by omega)
  · exact store_of_le buffer (by omega)

/-- A part of what was copied is read back from its place. -/
theorem load_store_part (buffer : Buffer) (front bytes back : List UInt8)
    (place : other = offset + front.length) (size : count = bytes.length) :
    (buffer.store offset (front ++ bytes ++ back)).load other count = bytes := by
  have apart : other + count ≤ offset + (front ++ bytes).length ∨
      offset + (front ++ bytes).length + back.length ≤ other := by
    rw [List.length_append]
    omega
  rw [← store_store buffer (front ++ bytes) back rfl, load_store_apart _ apart,
    ← store_store buffer front bytes place, size, load_store]

end Buffer

end ByteStream
