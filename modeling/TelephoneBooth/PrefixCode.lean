import Mathlib.Data.List.Basic
import Mathlib.Data.Option.Basic

/-! Codes into bytes whose words show their own end, so that a word is read off the front of any
text that starts with it. -/
namespace TelephoneBooth

structure PrefixCode (α : Type*) where
  put : α → List UInt8
  take : List UInt8 → Option (α × List UInt8)
  reads : ∀ value rest, take (put value ++ rest) = some (value,rest)

namespace PrefixCode
variable {α β : Type*}

def takeMarks : List UInt8 → Option (Nat × List UInt8)
  | [] => none
  | mark :: rest =>
    if mark = 0 then some (0,rest) else (takeMarks rest).map fun (count,rest) => (count + 1,rest)

def nat : PrefixCode Nat where
  put count := List.replicate count 1 ++ [0]
  take := takeMarks
  reads count rest := by
    induction count with
    | zero => rfl
    | succ count ih =>
      rw [List.replicate_succ,List.cons_append,List.cons_append,takeMarks,if_neg (by decide),ih]
      rfl

def both (left : PrefixCode α) (right : PrefixCode β) : PrefixCode (α × β) where
  put value := left.put value.1 ++ right.put value.2
  take text := (left.take text).bind fun (first,text) =>
    (right.take text).map fun (second,text) => ((first,second),text)
  reads value rest := by
    rw [List.append_assoc,left.reads]
    simp only [Option.bind_some,right.reads,Option.map_some]

def takeMany (code : PrefixCode α) : Nat → List UInt8 → Option (List α × List UInt8)
  | 0, text => some ([],text)
  | count + 1, text => (code.take text).bind fun (first,text) =>
    (takeMany code count text).map fun (others,text) => (first :: others,text)

theorem takeManyReads (code : PrefixCode α) (values : List α) (rest : List UInt8) :
    takeMany code values.length (values.flatMap code.put ++ rest) = some (values,rest) := by
  induction values with
  | nil => rfl
  | cons value values ih =>
    rw [List.length_cons,List.flatMap_cons,List.append_assoc,takeMany,code.reads]
    simp only [Option.bind_some,ih,Option.map_some]

def list (code : PrefixCode α) : PrefixCode (List α) where
  put values := nat.put values.length ++ values.flatMap code.put
  take text := (nat.take text).bind fun (count,text) => takeMany code count text
  reads values rest := by
    rw [List.append_assoc,nat.reads]
    exact takeManyReads code values rest

def through (code : PrefixCode β) (into : α → β) (back : β → Option α)
    (inverse : ∀ value, back (into value) = some value) : PrefixCode α where
  put value := code.put (into value)
  take text := (code.take text).bind fun (parts,text) => (back parts).map fun value => (value,text)
  reads value rest := by
    rw [code.reads]
    simp only [Option.bind_some,inverse,Option.map_some]

def text : PrefixCode String :=
  (list nat).through (fun text => text.toList.map Char.toNat)
    (fun codes => some (String.ofList (codes.map Char.ofNat))) fun text => by
      rw [List.map_map,show Char.ofNat ∘ Char.toNat = id from funext Char.ofNat_toNat,List.map_id,
        String.ofList_toList]

def option (code : PrefixCode α) : PrefixCode (Option α) :=
  (list code).through Option.toList (fun values => some values.head?) fun value => by
    cases value <;> rfl

end PrefixCode

end TelephoneBooth
