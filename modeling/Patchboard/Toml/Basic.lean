import Patchboard.Text.Binary64

set_option autoImplicit false

namespace Patchboard

namespace Toml

structure Date where
  year : Nat
  month : Nat
  day : Nat
deriving DecidableEq

structure Time where
  hour : Nat
  minute : Nat
  second : Option Nat
  /-- The digits of the fraction of a second, at most nine. -/
  fraction : Option (List Char)
deriving DecidableEq

inductive Offset where
  | utc
  /-- Minutes east of UTC. -/
  | minutes (east : Int)
deriving DecidableEq

structure Datetime where
  date : Option Date
  time : Option Time
  offset : Option Offset
deriving DecidableEq

def padded (width n : Nat) : List Char :=
  let digits := Nat.toDigits 10 n
  List.replicate (width - digits.length) '0' ++ digits

def Date.render (d : Date) : List Char :=
  padded 4 d.year ++ '-' :: padded 2 d.month ++ '-' :: padded 2 d.day

def dropZeros (s : List Char) : List Char := (s.reverse.dropWhile (· = '0')).reverse

def Time.render (t : Time) : List Char :=
  padded 2 t.hour ++ ':' :: padded 2 t.minute ++
    (match t.second with
      | some s => ':' :: padded 2 s
      | none => []) ++
    (match t.fraction with
      | some f => '.' :: (if (dropZeros f).isEmpty then ['0'] else dropZeros f)
      | none => [])

def Offset.render : Offset → List Char
  | .utc => ['Z']
  | .minutes east =>
    (if east < 0 then '-' else '+') :: padded 2 (east.natAbs / 60) ++ ':' ::
      padded 2 (east.natAbs % 60)

def Datetime.render (d : Datetime) : List Char :=
  (d.date.map Date.render).getD [] ++
    (if d.date.isSome && d.time.isSome then ['T'] else []) ++
    (d.time.map Time.render).getD [] ++ (d.offset.map Offset.render).getD []

end Toml

inductive Toml where
  | string (text : String)
  | integer (value : Int)
  | float (value : Binary64)
  | boolean (value : Bool)
  | datetime (value : Toml.Datetime)
  | array (items : List Toml)
  | table (fields : List (String × Toml))
deriving Inhabited

namespace Toml

def fields? : Toml → Option (List (String × Toml))
  | .table fields => some fields
  | _ => none

def isTable (t : Toml) : Bool := t.fields?.isSome

def lookup {α : Type} (key : String) (fields : List (String × α)) : Option α :=
  (fields.find? fun f => f.1 = key).map (·.2)

def insert {α : Type} (key : String) (value : α) : List (String × α) → List (String × α)
  | [] => [(key, value)]
  | (k, v) :: fields =>
    if key = k then (key, value) :: fields
    else if key < k then (key, value) :: (k, v) :: fields
    else (k, v) :: insert key value fields

end Toml

end Patchboard
