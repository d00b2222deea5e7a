import Polyloft.Text.Digit

/-!
# Polyloft.CommandLine.Arguments

Reading command-line arguments into a record. A parser has options, which may stand anywhere, and
slots for the other words, which are filled in order. A long option may be shortened as long as it
is unambiguous and may carry its value after an equals sign; short options without a value may be
written together. After `--` every argument is a word, and so is a negative number.

All arguments are classified before any of them takes effect; after that effects happen from left
to right, so that the first of a fault, a request for help and a request for the version wins.
Arguments that nothing takes are handed back.
-/

namespace Polyloft.CommandLine

open Polyloft.Text

/-- Why reading arguments stops early. -/
inductive Stop where
  | usage
  | help
  | version
deriving DecidableEq, Repr

/-- What an option does to the record of arguments. -/
inductive Effect (α : Type) where
  | stop (reason : Stop)
  | switch (set : α → α)
  | value (set : α → String → Except Stop α)

/-- An option with its names. -/
structure Opt (α : Type) where
  names : List String
  effect : Effect α

/-- How many words a slot takes. -/
inductive SlotSize where
  /-- One word. -/
  | one
  /-- One word and those that follow it. -/
  | many
  /-- One word and every argument that follows it. -/
  | rest
deriving DecidableEq, Repr

/-- A slot; filling it may leave arguments that nothing takes. -/
structure Slot (α : Type) where
  size : SlotSize
  fill : α → List String → Except Stop (α × List String)

/-- The options and slots of a parser. -/
structure Spec (α : Type) where
  options : List (Opt α)
  slots : List (Slot α)

/-! ### Classifying -/

/-- How an option argument is meant: the option's name and effect, and what was written together
with it. `sep` says that the value stands after an equals sign. -/
structure OptionUse (α : Type) where
  name : List Char
  effect : Effect α
  explicit : Option (List Char)
  sep : Bool

/-- What an argument is. -/
inductive Mark (α : Type) where
  | word
  | separator
  | known (use : OptionUse α)
  | unknown

namespace Mark

variable {α : Type}

/-- An option, known or not. -/
def isOption : Mark α → Bool
  | .known _ | .unknown => true
  | _ => false

end Mark

section

variable {α : Type}

/-- Every name of every option with its effect. -/
def optionNames (options : List (Opt α)) : List (List Char × Effect α) :=
  options.flatMap fun o => o.names.map fun n => (n.toList, o.effect)

/-- The effect of the option with exactly this name. -/
def effectOf? (options : List (Opt α)) (name : List Char) : Option (Effect α) :=
  ((optionNames options).find? fun n => n.1 == name).map Prod.snd

/-- A text up to its first equals sign, and what follows it. -/
def splitEquals (cs : List Char) : List Char × Option (List Char) :=
  match cs.dropWhile (· != '=') with
  | [] => (cs, none)
  | _ :: value => (cs.takeWhile (· != '='), some value)

/-- A minus sign and a number. -/
def isNegativeNumber (cs : List Char) : Bool :=
  let body := if cs.getLast? == some '\n' then cs.dropLast else cs
  match body with
  | '-' :: ds =>
    let whole := ds.takeWhile isDecimal
    match ds.dropWhile isDecimal with
    | [] => !whole.isEmpty
    | '.' :: fraction => !fraction.isEmpty && fraction.all isDecimal
    | _ => false
  | _ => false

/-- The options that an argument which is no option's exact name may mean. -/
def possibleUses (options : List (Opt α)) (arg : List Char) : List (OptionUse α) :=
  match arg with
  | '-' :: '-' :: _ =>
    let (start, value) := splitEquals arg
    (optionNames options).filterMap fun (name, effect) =>
      if start.isPrefixOf name then some ⟨name, effect, value, value.isSome⟩ else none
  | _ =>
    (optionNames options).filterMap fun (name, effect) =>
      if name == arg.take 2 then some ⟨name, effect, some (arg.drop 2), false⟩
      else if arg.isPrefixOf name then some ⟨name, effect, none, false⟩
      else none

/-- What an argument before any `--` is. An ambiguous one is a fault. -/
def classify (options : List (Opt α)) (arg : List Char) : Except Stop (Mark α) :=
  if arg.head? != some '-' then .ok .word
  else
    match effectOf? options arg with
    | some effect => .ok (.known ⟨arg, effect, none, false⟩)
    | none =>
      if arg.length = 1 then .ok .word
      else
        let (name, value) := splitEquals arg
        match value, effectOf? options name with
        | some v, some effect => .ok (.known ⟨name, effect, some v, true⟩)
        | _, _ =>
          match possibleUses options arg with
          | [use] => .ok (.known use)
          | [] => .ok (if isNegativeNumber arg || arg.contains ' ' then .word else .unknown)
          | _ => .error .usage

/-- Arguments with what each of them is. -/
def classifyAll (options : List (Opt α)) : List String → Except Stop (List (String × Mark α))
  | [] => .ok []
  | arg :: args =>
    if arg = "--" then .ok ((arg, .separator) :: args.map (·, .word))
    else do
      let mark ← classify options arg.toList
      return (arg, mark) :: (← classifyAll options args)

/-! ### Effects -/

/-- Where reading stands. -/
structure State (α : Type) where
  record : α
  slots : List (Slot α)
  extras : List String

/-- Separators at the start, and what follows. -/
def skipSeparators (args : List (String × Mark α)) :
    List String × List (String × Mark α) :=
  let isSeparator (a : String × Mark α) : Bool := match a.2 with
    | .separator => true
    | _ => false
  ((args.takeWhile isSeparator).map Prod.fst, args.dropWhile isSeparator)

/-- The arguments a slot of a given size takes at the start, and what follows; `none` if there is
no word for it. -/
def takeFor? (size : SlotSize) (args : List (String × Mark α)) :
    Option (List String × List (String × Mark α)) :=
  let (before, rest) := skipSeparators args
  match rest with
  | (word, .word) :: more =>
    match size with
    | .one =>
      let (after, more) := skipSeparators more
      some (before ++ word :: after, more)
    | .many =>
      let taken := more.takeWhile fun a => !a.2.isOption
      some (before ++ word :: taken.map Prod.fst, more.drop taken.length)
    | .rest => some (before ++ word :: more.map Prod.fst, [])
  | _ => none

/-- Fills as many slots as there are words for at the start. -/
def fillSlots (record : α) (extras : List String) :
    List (Slot α) → List (String × Mark α) → Except Stop (State α × List (String × Mark α))
  | [], args => .ok (⟨record, [], extras⟩, args)
  | slot :: slots, args =>
    match takeFor? slot.size args with
    | none => .ok (⟨record, slot :: slots, extras⟩, args)
    | some (words, rest) => do
      -- The separator itself is not handed to a slot for words.
      let words := if slot.size = .rest then words else words.erase "--"
      let (record, more) ← slot.fill record words
      fillSlots record (extras ++ more) slots rest

/-- Short options written together: the effects of all of them, or a fault. `fuel` is the number
of characters. What no option takes is handed back. -/
def clusterEffects (options : List (Opt α)) (use : OptionUse α) :
    Nat → Except Stop (List (Effect α × Option String) × List String)
  | 0 => .error .usage
  | fuel + 1 =>
    match use.effect, use.explicit with
    | .value set, some v => .ok ([(.value set, some (String.ofList v))], [])
    | effect, none => .ok ([(effect, none)], [])
    | effect, some v =>
      let isShort := use.name.tail.head? != some '-'
      match v with
      | [] => .error .usage
      | c :: cs =>
        if !isShort || use.sep || c == '-' then .error .usage
        else
          match effectOf? options ['-', c] with
          | none => .ok ([(effect, none)], [String.ofList ('-' :: c :: cs)])
          | some next => do
            let (explicit, sep) := match cs with
              | [] => (none, false)
              | '=' :: value => (some value, true)
              | _ => (some cs, false)
            let (effects, extras) ← clusterEffects options ⟨['-', c], next, explicit, sep⟩ fuel
            return ((effect, none) :: effects, extras)

/-- Applies effects in order. An option that still needs its value takes it from `value`. -/
def applyEffects (record : α) (value : Option String) :
    List (Effect α × Option String) → Except Stop α
  | [] => .ok record
  | (effect, given) :: effects => do
    let record ← match effect with
      | .stop reason => .error reason
      | .switch set => .ok (set record)
      | .value set =>
        match given.or value with
        | some v => set record v
        | none => .error .usage
    applyEffects record value effects

/-- Does the last of some effects need a value from the next argument? -/
def needsValue (effects : List (Effect α × Option String)) : Bool :=
  match effects.getLast? with
  | some (.value _, none) => true
  | _ => false

/-- An option at the start of the arguments takes effect. -/
def takeOption (options : List (Opt α)) (s : State α) (arg : String) (mark : Mark α)
    (rest : List (String × Mark α)) : Except Stop (State α × List (String × Mark α)) :=
  match mark with
  | .known use => do
    let (effects, extras) ← clusterEffects options use (arg.length + 1)
    let s := { s with extras := s.extras ++ extras }
    if needsValue effects then
      match rest with
      | (value, .word) :: rest =>
        return ({ s with record := ← applyEffects s.record (some value) effects }, rest)
      | _ => throw .usage
    else return ({ s with record := ← applyEffects s.record none effects }, rest)
  | _ => .ok ({ s with extras := s.extras ++ [arg] }, rest)

/-- Lets the arguments take effect from left to right. -/
def consume (options : List (Opt α)) (s : State α) (args : List (String × Mark α)) :
    Nat → Except Stop (State α)
  | 0 => .error .usage
  | fuel + 1 => do
    let ahead := args.takeWhile fun a => !a.2.isOption
    match args.drop ahead.length with
    | [] =>
      let (s, rest) ← fillSlots s.record s.extras s.slots args
      return { s with extras := s.extras ++ rest.map Prod.fst }
    | (arg, mark) :: rest =>
      let (filled, left) ← fillSlots s.record s.extras s.slots args
      if !ahead.isEmpty && left.length < args.length then consume options filled left fuel
      else
        let s := { s with extras := s.extras ++ ahead.map Prod.fst }
        let (s, rest) ← takeOption options s arg mark rest
        consume options s rest fuel

/-- Reads arguments, starting from a record; hands back those that nothing takes. -/
def Spec.read (spec : Spec α) (record : α) (args : List String) :
    Except Stop (State α) := do
  let marked ← classifyAll spec.options args
  consume spec.options ⟨record, spec.slots, []⟩ marked (args.length + 1)

/-- Reads arguments; every slot must be filled. -/
def Spec.readAll (spec : Spec α) (record : α) (args : List String) :
    Except Stop (α × List String) := do
  let s ← spec.read record args
  if s.slots.isEmpty then return (s.record, s.extras) else throw .usage

end

end Polyloft.CommandLine
