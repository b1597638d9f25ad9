import ScriptTrace.Run.State
import ScriptTrace.Text.Escape
import ScriptTrace.Value.Operator
import ScriptTrace.Value.Property
/-!
# Evaluation of expressions

`Expr.eval` follows the shape of the expression. What a case does once its parts are evaluated is a
definition of its own. A construct outside the language is reported and gives `undefined`.
-/
namespace ScriptTrace

open Act Op Run

/-! ## Names -/

/-- The value of a name: a variable, a function, or one of the three words every script knows. -/
def Op.lookupName (line : Nat) (x : Text) : Op Value := do
  let m ← get
  match m.env.lookup? x with
  | some v => return v
  | none =>
    if m.functions.contains x then return .function x
    else if x = "undefined" then return .undefined
    else if x = "NaN" then return .number .nan
    else if x = "Infinity" then return .number (.infinity false)
    else
      warn .evaluator ["Variable '", x, "' is undefined (line ", (line : Text), ")"]
      return .undefined

/-- The function a name calls: the one it is bound to, else the one of that name. -/
def Memory.resolve? (m : Memory) (x : Text) : Option (Text × Routine Stmt) :=
  let own := (m.functions.get? x).map (x, ·)
  match m.env.lookup? x with
  | some (.function name) =>
    match m.functions.get? name with
    | some r => some (name, r)
    | none => own
  | _ => own

def Op.resolve? (x : Text) : Op (Option (Text × Routine Stmt)) :=
  return (← get).resolve? x

/-! ## Operators -/

/-- The look that goes ahead of a unary operator. -/
def UnaryOp.look (op : UnaryOp) (v : Value) (strangers : List Value) (h : Heap) : Look :=
  match op with
  | .minus | .plus | .complement => v.lookNumber strangers h
  | .not | .typeName => v.lookAt strangers
  | .void | .unsupported _ => return ()

def applyUnary (strangers : Strangers) (line : Nat) (op : UnaryOp) (v : Value) : Op Value := do
  screen strangers (op.look v)
  let h := (← get).heap
  match op with
  | .minus => return .number (← ofFault (v.toNumber h)).neg
  | .plus => return .number (← ofFault (v.toNumber h))
  | .not => return .bool !v.truthy
  | .complement => ofFault (v.bitNot h)
  | .typeName => return .text v.typeName
  | .void => return .undefined
  | .unsupported spelling =>
    warn .evaluator ["Unsupported unary operator '", spelling, "' at line ", (line : Text)]
    return .undefined

def applyBinary (strangers : Strangers) (op : BinaryOp) (l r : Value) : Op Value := do
  screen strangers fun strangers h => Value.lookBinary strangers h op l r
  ofFault (Value.apply (← get).heap op l r)

/-- Whether the left operand of a logical operator is the result. -/
def LogicalOp.stops (op : LogicalOp) (l : Value) : Bool :=
  match op with
  | .and => !l.truthy
  | .or => l.truthy
  | .coalesce => !l.isNullish

/-- A value that is about to be tested. -/
def tested (strangers : Strangers) (v : Value) : Op Value := do
  screen strangers fun strangers _ => v.lookAt strangers
  return v

/-- The text shown for a value. -/
def shownText (strangers : Strangers) (v : Value) : Op Text := do
  screen strangers fun strangers h => v.lookShown strangers h
  return v.render (← get).heap

/-! ## Properties and targets -/

def readProperty (strangers : Strangers) (line : Nat) (holder key : Value) : Op Value := do
  screen strangers fun strangers h => Value.lookRead strangers h holder key
  let h := (← get).heap
  let v ← ofFault (Value.getProperty h holder key)
  if holder.isNullish then
    warn .evaluator ["Member access failed: reading '", key.render h, "' of ", holder.render h, " (line ",
      (line : Text), ")"]
  return v

def writeProperty (strangers : Strangers) (line : Nat) (holder key v : Value) : Op Unit := do
  screen strangers fun strangers h => Value.lookWrite strangers h holder key v
  let m ← get
  let (heap, remark) ← ofFault (Value.setProperty m.heap holder key v line)
  set { m with heap := heap }
  match remark with
  | some r => warn .evaluator [r.message]
  | none => return ()

/-- Where an assignment goes, once holder and key are evaluated. -/
inductive Place
  | name (line : Nat) (x : Text)
  | slot (line : Nat) (holder key : Value)
  | nowhere (line : Nat) (kind : String)

/-- Stores a value; the result is the value of the assignment. -/
def Place.write (strangers : Strangers) (p : Place) (v : Value) : Op Value := do
  match p with
  | .name line x =>
    let m ← get
    match m.env.assign x v with
    | .ok env =>
      set { m with env := env }
      return v
    | .error cause => throw (.failure cause (some line))
  | .slot line holder key =>
    writeProperty strangers line holder key v
    return v
  | .nowhere line kind =>
    warn .evaluator ["Unsupported assignment target '", Text.ofString kind, "' at line ", (line : Text)]
    return .undefined

/-- Stores the value by one more or one less. -/
def Place.step (strangers : Strangers) (p : Place) (up isPrefix : Bool) (current : Value) : Op Value := do
  screen strangers fun strangers h => current.lookNumber strangers h
  let old ← ofFault (current.toNumber (← get).heap)
  let new := if up then old.add 1 else old.sub 1
  discard (p.write strangers (.number new))
  return .number (if isPrefix then new else old)

/-! ## Literals and calls -/

/-- The raw texts of a template around the texts of its holes. -/
def interleave : List Text → List Text → List Text
  | raw :: raws, hole :: holes => raw.unescape :: hole :: interleave raws holes
  | raws, [] => raws.map Text.unescape
  | [], holes => holes

/-- The value that a console call queues: a single argument as it is, others as an array. -/
def Op.captured : List Value → Op Value
  | [v] => pure v
  | args => newArray args

def queueOutput (args : List Value) : Run Value := do
  print (← captured args)
  return .undefined

/-- Reports a call that went too deep, or would have. -/
def Context.overflow (ctx : Context) (line : Nat) (x : Text) : Run Value :=
  ctx.diagnose line (Text.concat ["Maximum call stack size exceeded while calling ", x, " (limit ",
    ctx.config.maxCallDepth.shown, ")"])

/-- Runs the call of a name; it answers when the native stack is used up. -/
def shielded (ctx : Context) (line : Nat) (x : Text) (act : Run Value) : Run Value :=
  act.handle fun
    | .exhausted => some (ctx.overflow line x)
    | _ => none

/-- Calls the function of a name, unless there is none or too many calls are open. -/
def invoke (ctx : Context) (line : Nat) (x : Text) (args : Run (List Value)) : Run Value := do
  match ← resolve? x with
  | none => ctx.diagnose line (Text.concat ["Function '", x, "' is not defined"])
  | some (name, r) =>
    if ctx.config.maxCallDepth.count ≤ (← get).callStack.length then
      refuse x line
      ctx.overflow line x
    else do
      let vs ← args
      shielded ctx line x (ctx.call name r vs line)

/-! ## The evaluator -/

mutual

def Expr.eval (ctx : Context) : Expr → Run Value
  | .name line x => lookupName line x
  | .number literal => pure (.number (Numeral.literal literal))
  | .string raw => pure (.text raw.unescape)
  | .template raws holes => do
    let texts ← Expr.evalTexts ctx holes
    return .text (← ofFault (Value.capped (Text.concat (interleave raws texts))))
  | .bool b => pure (.bool b)
  | .null => pure .null
  | .undefined => pure .undefined
  | .unary line op operand => do applyUnary ctx.strangers line op (← operand.eval ctx)
  | .binary line op left right => do
    let l ← left.eval ctx
    match op with
    | .logical op => if op.stops (← tested ctx.strangers l) then return l else right.eval ctx
    | .strict op =>
      let r ← right.eval ctx
      applyBinary ctx.strangers op l r
    | .unsupported spelling =>
      discard (right.eval ctx)
      warn .evaluator ["Unsupported binary operator '", spelling, "' at line ", (line : Text)]
      return .undefined
  | .conditional test yes no => do
    let t ← tested ctx.strangers (← test.eval ctx)
    if t.truthy then yes.eval ctx else no.eval ctx
  | .update up isPrefix target => do
    let p ← target.place ctx
    let current ← target.current ctx p
    p.step ctx.strangers up isPrefix current
  | .assign target right => do
    let p ← target.place ctx
    let v ← right.eval ctx
    p.write ctx.strangers v
  | .augment line target op right => do
    let p ← target.place ctx
    let current ← target.current ctx p
    match op with
    | .logical op =>
      if op.stops (← tested ctx.strangers current) then return current else do p.write ctx.strangers (← right.eval ctx)
    | .strict op =>
      let r ← right.eval ctx
      p.write ctx.strangers (← applyBinary ctx.strangers op current r)
    | .unsupported spelling =>
      warn .evaluator ["Unsupported assignment operator '", spelling, "=' at line ", (line : Text)]
      return .undefined
  | .array items => do newArray (← Expr.evalAll ctx items)
  | .object members => do newObject (← Member.evalAll ctx members [])
  | .property line holder key => do
    let h ← holder.eval ctx
    let k ← key.eval ctx
    readProperty ctx.strangers line h k
  | .call line callee args =>
    match callee with
    | .console => do queueOutput (← Expr.evalAll ctx args)
    | .name x => invoke ctx line x (Expr.evalAll ctx args)
    | .other text => ctx.diagnose line (Text.concat ["Unsupported call: ", text, "(...)"])
  | .sequence items => do return (← Expr.evalAll ctx items).getLastD .undefined
  | .spread => pure (.text "[Spread]")
  | .function name => pure (.function name)
  | .unsupported line kind => do
    warn .evaluator ["Unsupported expression type '", Text.ofString kind, "' at line ", (line : Text)]
    return .undefined

/-- The values of expressions, from left to right. -/
def Expr.evalAll (ctx : Context) : List Expr → Run (List Value)
  | [] => pure []
  | e :: rest => do
    let v ← e.eval ctx
    let vs ← Expr.evalAll ctx rest
    return v :: vs

/-- The texts of expressions, each taken as soon as its value is there. -/
def Expr.evalTexts (ctx : Context) : List Expr → Run (List Text)
  | [] => pure []
  | e :: rest => do
    let v ← e.eval ctx
    let t ← shownText ctx.strangers v
    let ts ← Expr.evalTexts ctx rest
    return t :: ts

/-- The value a property is named by. -/
def Key.eval (ctx : Context) : Key → Run Value
  | .fixed name => pure (.text name)
  | .string raw => pure (.text raw.unescape)
  | .number literal => pure (.number (Numeral.literal literal))
  | .computed e => e.eval ctx

/-- The entries of an object literal, added to those before. -/
def Member.evalAll (ctx : Context) : List Member → Entries → Run Entries
  | [], entries => pure entries
  | .pair key value :: rest, entries => do
    let name ← shownText ctx.strangers (← key.eval ctx)
    let v ← value.eval ctx
    Member.evalAll ctx rest (entries.insert (.text name) v)
  | .shorthand line x :: rest, entries => do
    let v ← lookupName line x
    Member.evalAll ctx rest (entries.insert (.text x) v)
  | .method key :: rest, entries => do
    let name ← shownText ctx.strangers (← key.eval ctx)
    Member.evalAll ctx rest (entries.insert (.text name) (.function name))
  | .unsupported line kind :: rest, entries => do
    warn .evaluator ["Object member '", Text.ofString kind, "' not supported (line ", (line : Text), ")"]
    Member.evalAll ctx rest entries

/-- Evaluates the holder and the key of a target, once. -/
def Target.place (ctx : Context) : Target → Run Place
  | .name line x => pure (.name line x)
  | .property line holder key => do
    let h ← holder.eval ctx
    let k ← key.eval ctx
    return .slot line h k
  | .invalid line kind _ => pure (.nowhere line kind)

/-- The value a target has before it is written. -/
def Target.current (ctx : Context) : Target → Place → Run Value
  | .invalid _ _ e, _ => e.eval ctx
  | _, .name line x => lookupName line x
  | _, .slot line holder key => readProperty ctx.strangers line holder key
  | _, .nowhere _ _ => pure .undefined

end

/-- Stores a value into a target. -/
def Target.store (ctx : Context) (t : Target) (v : Value) : Run Value := do
  let p ← t.place ctx
  p.write ctx.strangers v

end ScriptTrace
