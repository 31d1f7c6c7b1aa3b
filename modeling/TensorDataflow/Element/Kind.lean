/-!
# Element kinds

The nineteen kinds of tensor element with their widths in bytes and their three spellings: the
upper-case label, the tag of the interchange form, and any spelling of the label that differs from
it in ASCII case only.
-/

namespace TensorDataflow

/-- What the elements of a tensor are. -/
inductive ElementKind where
  | byte | bool | i8 | i16 | i32 | i64 | u8 | u16 | u32 | u64
  | f8 | f16 | f32 | f64 | c16 | c32 | c64 | c128 | bf16
  deriving DecidableEq, Repr, Inhabited

namespace ElementKind

def all : List ElementKind :=
  [byte, bool, i8, i16, i32, i64, u8, u16, u32, u64, f8, f16, f32, f64, c16, c32, c64, c128, bf16]

/-- The width of one element in bytes. -/
def size : ElementKind → Nat
  | byte | bool | i8 | u8 | f8 => 1
  | i16 | u16 | f16 | bf16 | c16 => 2
  | i32 | u32 | f32 | c32 => 4
  | i64 | u64 | f64 | c64 => 8
  | c128 => 16

def label : ElementKind → String
  | byte => "BYTE"
  | bool => "BOOL"
  | i8 => "I8"
  | i16 => "I16"
  | i32 => "I32"
  | i64 => "I64"
  | u8 => "U8"
  | u16 => "U16"
  | u32 => "U32"
  | u64 => "U64"
  | f8 => "F8"
  | f16 => "F16"
  | f32 => "F32"
  | f64 => "F64"
  | c16 => "C16"
  | c32 => "C32"
  | c64 => "C64"
  | c128 => "C128"
  | bf16 => "BF16"

/-- The spelling in the interchange form. -/
def tag : ElementKind → String
  | byte => "Byte"
  | bool => "Bool"
  | kind => kind.label

/-- The real floating-point kinds. -/
def isFloat : ElementKind → Bool
  | f8 | f16 | bf16 | f32 | f64 => true
  | _ => false

/-- The kind with the given label, in any ASCII case. -/
def ofLabel? (text : String) : Option ElementKind :=
  all.find? fun kind => kind.label.toLower == text.map Char.toLower

end ElementKind

end TensorDataflow
