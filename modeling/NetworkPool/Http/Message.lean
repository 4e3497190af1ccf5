import NetworkPool.Lib.CString

/-!
# HTTP messages

What a message is and how it is written: a first line, header fields of which one gives the
framing, and a body of a given length or in chunks. The structures carry what makes a message
well formed.
-/

namespace NetworkPool

open Lib.CString

/-- Bytes without NUL, CR and LF. -/
def Plain (s : List UInt8) : Prop :=
  ∀ b ∈ s, b ≠ 0 ∧ b ≠ 10 ∧ b ≠ 13

/-- Neither empty nor with a space at an end. -/
def Trimmed (s : List UInt8) : Prop :=
  (∃ b ∈ s.head?, isspace b = false) ∧ ∃ b ∈ s.getLast?, isspace b = false

/-- Spaces that do not break a line. -/
def Blank (s : List UInt8) : Prop :=
  ∀ b ∈ s, isspace b = true ∧ b ≠ 10 ∧ b ≠ 13

/-- A property of the bytes of a string is decided on the string, not on all bytes. -/
instance (priority := 2000) decidableBytes {p : UInt8 → Prop} [DecidablePred p] (s : List UInt8) :
    Decidable (∀ b ∈ s, p b) :=
  List.decidableBAll p s

instance (priority := 2000) decidableByte {p : UInt8 → Prop} [DecidablePred p] (o : Option UInt8) :
    Decidable (∃ b ∈ o, p b) :=
  Option.decidableExistsMem o

instance (s : List UInt8) : Decidable (Plain s) :=
  inferInstanceAs (Decidable (∀ b ∈ s, b ≠ 0 ∧ b ≠ 10 ∧ b ≠ 13))

instance (s : List UInt8) : Decidable (Trimmed s) :=
  inferInstanceAs (Decidable ((∃ b ∈ s.head?, isspace b = false) ∧
    ∃ b ∈ s.getLast?, isspace b = false))

instance (s : List UInt8) : Decidable (Blank s) :=
  inferInstanceAs (Decidable (∀ b ∈ s, isspace b = true ∧ b ≠ 10 ∧ b ≠ 13))

/-- CR LF. -/
def crlf : List UInt8 := [13, 10]

/-! ## Lines -/

/-- The first line: three parts separated by two spaces. -/
structure FirstLine where
  first : List UInt8
  second : List UInt8
  third : List UInt8
  plain : Plain (first ++ second ++ third)
  space_notMem : 32 ∉ first ++ second ++ third
  colon_notMem : 58 ∉ first ++ second ++ third

def FirstLine.line (f : FirstLine) : List UInt8 :=
  f.first ++ 32 :: (f.second ++ 32 :: f.third)

/-- A header or trailer field, with the spaces around its name and its value. -/
structure Field where
  name : List UInt8
  value : List UInt8
  before : List UInt8
  beforeColon : List UInt8
  afterColon : List UInt8
  after : List UInt8
  plain_name : Plain name
  trimmed_name : Trimmed name
  colon_notMem : 58 ∉ name
  plain_value : Plain value
  trimmed_value : Trimmed value
  blank : Blank (before ++ beforeColon ++ afterColon ++ after)

def Field.line (f : Field) : List UInt8 :=
  f.before ++ f.name ++ f.beforeColon ++ 58 :: (f.afterColon ++ f.value ++ f.after)

/-- The fields that decide the framing. -/
def Field.Framing (f : Field) : Prop :=
  SameName (lit "Content-Length") f.name ∨ SameName (lit "Transfer-Encoding") f.name

instance (f : Field) : Decidable f.Framing :=
  inferInstanceAs (Decidable (_ ∨ _))

/-- The value of a hexadecimal digit. -/
def hexDigit (b : UInt8) : Option ℕ :=
  if 48 ≤ b ∧ b ≤ 57 then some (b.toNat - 48)
  else if 97 ≤ b ∧ b ≤ 102 then some (b.toNat - 97 + 10)
  else if 65 ≤ b ∧ b ≤ 70 then some (b.toNat - 65 + 10)
  else none

/-- The value of hexadecimal digits that follow a number. -/
def hexFold (n : ℕ) (digits : List UInt8) : ℕ :=
  digits.foldl (fun n b => n * 16 + (hexDigit b).getD 0) n

/-- The line with the size of a chunk. -/
structure SizeLine where
  digits : List UInt8
  extension : List UInt8
  digits_ne : digits ≠ []
  hex : ∀ b ∈ digits, (hexDigit b).isSome = true
  semicolon : extension = [] ∨ extension.head? = some 59
  lf_notMem : 10 ∉ extension

def SizeLine.line (l : SizeLine) : List UInt8 :=
  l.digits ++ l.extension

def SizeLine.size (l : SizeLine) : ℕ :=
  hexFold 0 l.digits

/-- A chunk with content. -/
structure Chunk extends SizeLine where
  content : List UInt8
  content_ne : content ≠ []
  size_eq : toSizeLine.size = content.length

/-! ## Messages -/

/-- A body with the field that gives its framing. -/
inductive Body where
  | sized (field : Field) (content : List UInt8)
      (hname : SameName (lit "Content-Length") field.name)
      (hdigits : ∀ b ∈ field.value, isdigit b = true)
      (hvalue : decimal field.value = content.length) (hlt : content.length < 2 ^ 31)
  | chunked (field : Field) (chunks : List Chunk) (last : SizeLine) (trailer : List Field)
      (hname : SameName (lit "Transfer-Encoding") field.name)
      (hvalue : SameName (lit "chunked") field.value) (hlast : last.size = 0)

namespace Body

def field : Body → Field
  | sized field .. => field
  | chunked field .. => field

def content : Body → List UInt8
  | sized _ content .. => content
  | chunked _ chunks .. => chunks.flatMap Chunk.content

def trailer : Body → List Field
  | sized .. => []
  | chunked _ _ _ trailer .. => trailer

end Body

/-- Lines, each followed by `eol`. -/
def wire (eol : List UInt8) (lines : List (List UInt8)) : List UInt8 :=
  lines.flatMap fun line => line ++ eol

/-- Chunks, with `eol` behind their size lines. -/
def wireChunks (eol : List UInt8) (chunks : List Chunk) : List UInt8 :=
  chunks.flatMap fun c => c.line ++ eol ++ (c.content ++ crlf)

/-- A body, with `eol` at the end of its lines. -/
def Body.wire (eol : List UInt8) : Body → List UInt8
  | sized _ content .. => content
  | chunked _ chunks last trailer .. =>
    wireChunks eol chunks ++ (last.line ++ eol ++
      (NetworkPool.wire eol (trailer.map Field.line) ++ eol))

/-- A message. -/
structure Message where
  first : FirstLine
  before : List Field
  body : Body
  after : List Field
  unframed : ∀ f ∈ before ++ after, ¬f.Framing

namespace Message

def headers (m : Message) : List Field :=
  m.before ++ m.body.field :: m.after

/-- A message, with `eol` at the end of its lines. -/
def wire (eol : List UInt8) (m : Message) : List UInt8 :=
  NetworkPool.wire eol (m.first.line :: m.headers.map Field.line) ++ eol ++ m.body.wire eol

/-- The bytes of a message. -/
def bytes (m : Message) : List UInt8 :=
  m.wire crlf

/-- The names and values of the header and trailer fields. -/
def parameters (m : Message) : List (List UInt8 × List UInt8) :=
  (m.headers ++ m.body.trailer).map fun f => (f.name, f.value)

end Message

/-! ## Lines are not broken -/

theorem Plain.notMem {s : List UInt8} (h : Plain s) : 0 ∉ s ∧ 10 ∉ s :=
  ⟨fun hmem => (h 0 hmem).1 rfl, fun hmem => (h 10 hmem).2.1 rfl⟩

theorem Blank.notMem {s : List UInt8} (h : Blank s) : 0 ∉ s ∧ 10 ∉ s ∧ 58 ∉ s := by
  refine ⟨fun hmem => ?_, fun hmem => (h 10 hmem).2.1 rfl, fun hmem => ?_⟩
  · exact absurd (h 0 hmem).1 (by decide)
  · exact absurd (h 58 hmem).1 (by decide)

theorem Blank.isspace {s : List UInt8} (h : Blank s) : ∀ b ∈ s, isspace b = true :=
  fun b hb => (h b hb).1

namespace Field

variable (f : Field)

theorem blank_parts :
    Blank f.before ∧ Blank f.beforeColon ∧ Blank f.afterColon ∧ Blank f.after := by
  have hblank := f.blank
  unfold Blank at hblank ⊢
  simp only [List.mem_append] at hblank
  refine ⟨fun b hb => ?_, fun b hb => ?_, fun b hb => ?_, fun b hb => ?_⟩
  all_goals
    apply hblank
    tauto

theorem name_length_pos : 0 < f.name.length := by
  obtain ⟨⟨b, hb, -⟩, -⟩ := f.trimmed_name
  exact List.length_pos_of_mem (List.mem_of_mem_head? hb)

theorem value_length_pos : 0 < f.value.length := by
  obtain ⟨⟨b, hb, -⟩, -⟩ := f.trimmed_value
  exact List.length_pos_of_mem (List.mem_of_mem_head? hb)

theorem line_notMem : 10 ∉ f.line := by
  obtain ⟨hbefore, hcolon, hafterColon, hafter⟩ := f.blank_parts
  have hname := f.plain_name.notMem.2
  have hvalue := f.plain_value.notMem.2
  simp [line, hbefore.notMem.2.1, hcolon.notMem.2.1, hafterColon.notMem.2.1, hafter.notMem.2.1,
    hname, hvalue]

theorem line_ne : f.line ≠ [] := by
  simp [line]

end Field

namespace FirstLine

variable (f : FirstLine)

theorem parts_notMem {b : UInt8} (h : b ∉ f.first ++ f.second ++ f.third) :
    b ∉ f.first ∧ b ∉ f.second ∧ b ∉ f.third := by
  simpa [not_or, and_assoc] using h

theorem line_notMem {b : UInt8} (h : b ∉ f.first ++ f.second ++ f.third) (hb : b ≠ 32) :
    b ∉ f.line := by
  obtain ⟨hfirst, hsecond, hthird⟩ := f.parts_notMem h
  simp [line, hfirst, hsecond, hthird, hb]

theorem line_ne : f.line ≠ [] := by
  simp [line]

end FirstLine

/-! ## Sizes -/

theorem le_hexFold (n : ℕ) (digits : List UInt8) : n ≤ hexFold n digits := by
  induction digits generalizing n with
  | nil => exact le_rfl
  | cons b digits ih =>
    have hle := ih (n * 16 + (hexDigit b).getD 0)
    rw [hexFold, List.foldl_cons]
    rw [hexFold] at hle
    omega

/-- Digits are no line feeds. -/
theorem SizeLine.line_notMem (l : SizeLine) : 10 ∉ l.line := by
  have hdigits : 10 ∉ l.digits := by
    intro hmem
    exact absurd (l.hex 10 hmem) (by decide)
  simp [line, hdigits, l.lf_notMem]

end NetworkPool
