import FlvDemux.Amf.Decode

/-!
# Reading AMF0 with a depth counter

The readers of `Amf.Decode` carry the levels of nesting still allowed as the parameter of their
recursion. Here the same reading keeps the decoder's count of open containers as state instead:
`nested` refuses a container once `maxNesting` are open, and otherwise counts it open while its
contents are read and closed afterwards, whether that reading succeeds or fails. A failure loses
the bytes but keeps the count.
-/

namespace FlvDemux.Amf

/-- A reader of AMF0 that also keeps the number of containers open. -/
abbrev Nesting (α : Type) := StateT (List UInt8) (ExceptT ReadError (StateM Nat)) α

namespace Nesting

variable {α β : Type}

/-- Runs a reader on `bs` with `depth` containers open. -/
def run (r : Nesting α) (bs : List UInt8) (depth : Nat) :
    Except ReadError (α × List UInt8) × Nat :=
  (r bs).run.run depth

/-- A reading that leaves the count alone. -/
def read (d : Decoder α) : Nesting α := fun bs => ExceptT.mk (pure (d.run bs))

def nested (k : Nesting α) : Nesting α := fun bs => ExceptT.mk do
  let depth ← get
  if maxNesting ≤ depth then return .error (.nestingTooDeep maxNesting)
  set (depth + 1)
  let result ← (k bs).run
  modify (· - 1)
  return result

/-- At most `bound` properties, each value read by `elem`. -/
def propertiesUpTo (elem : Nesting β) : Nat → Nesting (List (String × β))
  | 0 => pure []
  | bound + 1 => do
    match ← read Decoder.nextKey with
    | none => pure []
    | some key =>
      let v ← elem
      return (key, v) :: (← propertiesUpTo elem bound)

def properties (elem : Nesting β) : Nesting (List (String × β)) := do
  propertiesUpTo elem (← read Reader.remaining)

def items (elem : Nesting β) : Nat → Nesting (List β)
  | 0 => pure []
  | n + 1 => do
    let v ← elem
    return v :: (← items elem n)

/-- One value, the values inside its containers read by `self`. -/
def valueBody (self : Nesting Value) : Nesting Value := do
  let m ← read Decoder.marker
  match m with
  | .number => return .number (← read (Decoder.lift Reader.bits64))
  | .boolean => return .boolean ((← read (Decoder.lift Reader.byte)) > 0)
  | .string => return .string (← read Decoder.shortText)
  | .object => return .object (← nested (properties self))
  | .ecmaArray =>
    let _ ← read (Decoder.lift Reader.u32)
    return .object (← nested (properties self))
  | .strictArray =>
    return .strictArray (← nested do items self (← read (Decoder.lift Reader.u32)).toNat)
  | .null => return .null
  | .undefined => return .undefined
  | .reference => return .reference (← read (Decoder.lift Reader.u16))
  | .date =>
    let millis ← read (Decoder.lift Reader.bits64)
    return .date millis (← read (Decoder.lift Reader.i16))
  | .longString => return .longString (← read Decoder.longText)
  | other => throw (.unsupportedType other)

/-- Passes over one value, the values inside its containers passed over by `self`. -/
def skipBody (self : Nesting Unit) : Nesting Unit := do
  let m ← read Decoder.marker
  match m with
  | .number => read (Decoder.drop 8)
  | .boolean => read (Decoder.drop 1)
  | .string | .movieClip => read (Decoder.drop (← read (Decoder.lift Reader.u16)).toNat)
  | .longString | .xmlDocument => read (Decoder.drop (← read (Decoder.lift Reader.u32)).toNat)
  | .object => nested do let _ ← properties self
  | .ecmaArray =>
    read (Decoder.drop 4)
    nested do let _ ← properties self
  | .typedObject =>
    read (Decoder.drop (← read (Decoder.lift Reader.u16)).toNat)
    nested do let _ ← properties self
  | .strictArray =>
    let n ← read (Decoder.lift Reader.u32)
    nested do let _ ← items self n.toNat
  | .reference => read (Decoder.drop 2)
  | .date => read (Decoder.drop 10)
  | .null | .undefined | .objectEnd | .unsupported => pure ()
  | .recordset | .avmPlusObject => throw (.unsupportedType m)

/-- One value, its recursion allowed `fuel` calls deep. -/
def valueFueled : Nat → Nesting Value
  | 0 => throw (.nestingTooDeep maxNesting)
  | fuel + 1 => valueBody (valueFueled fuel)

/-- Passes over one value, its recursion allowed `fuel` calls deep. -/
def skipFueled : Nat → Nesting Unit
  | 0 => throw (.nestingTooDeep maxNesting)
  | fuel + 1 => skipBody (skipFueled fuel)

/-- One value; the counter stops the recursion before the fuel does. -/
def decode : Nesting Value := valueFueled (maxNesting + 1)

/-- Passes over one value; the counter stops the recursion before the fuel does. -/
def skip : Nesting Unit := skipFueled (maxNesting + 1)

@[simp] theorem run_pure (a : α) (bs : List UInt8) (e : Nat) :
    (pure a : Nesting α).run bs e = (.ok (a, bs), e) := rfl

@[simp] theorem run_read (d : Decoder α) (bs : List UInt8) (e : Nat) :
    (read d).run bs e = (d.run bs, e) := rfl

@[simp] theorem run_throw (x : ReadError) (bs : List UInt8) (e : Nat) :
    (throw x : Nesting α).run bs e = (.error x, e) := rfl

theorem run_bind (r : Nesting α) (f : α → Nesting β) (bs : List UInt8) (e : Nat) :
    (r >>= f).run bs e =
      match r.run bs e with
      | (.ok (a, rest), e') => (f a).run rest e'
      | (.error x, e') => (.error x, e') := by
  simp only [run, bind, StateT.bind, ExceptT.run, ExceptT.bind, ExceptT.mk, ExceptT.bindCont,
    StateT.run]
  rcases h : (r bs) e with ⟨_ | ⟨a, rest⟩, e'⟩ <;> rfl

theorem run_nested (k : Nesting α) (bs : List UInt8) (e : Nat) :
    (nested k).run bs e =
      if maxNesting ≤ e then (.error (.nestingTooDeep maxNesting), e)
      else ((k.run bs (e + 1)).1, (k.run bs (e + 1)).2 - 1) := by
  by_cases h : maxNesting ≤ e <;> simp [run, nested, h] <;> rfl

end Nesting

end FlvDemux.Amf
