import Mathlib.Algebra.Group.Nat.Defs
import Mathlib.Data.Char
import Mathlib.Data.List.Lex
import TelephoneBooth.KeyNames

/-! The names of the event spool's files, and the place in the queue that is read back out of
them: a sequence number, and for a chunk the indices of the splits it came from. -/
namespace TelephoneBooth.BatchNames

def batchMark : Name := ['b','a','t','c','h','-']

def partMark : Name := ['-','p','a','r','t','-']

def splitMark : Name := ['s','p','l','i','t','-']

def json : Name := ['j','s','o','n']

def jsonSuffix : Name := '.' :: json

def padded (width n : Nat) : Name :=
  List.replicate (width - (Nat.toDigits 10 n).length) '0' ++ Nat.toDigits 10 n

def batchName (sequence : Nat) : Name := batchMark ++ padded 20 sequence ++ jsonSuffix

def chunkName (stem : Name) (index : Nat) : Name := stem ++ partMark ++ padded 6 index ++ jsonSuffix

def temporary (name : Name) : Name := ['.','t','m','p','-'] ++ name

def lastDot : Name → Option (Name × Name)
  | [] => none
  | c :: rest =>
    match lastDot rest with
    | some (before,after) => some (c :: before,after)
    | none => if c = '.' then some ([],rest) else none

/- A name whose only dot is its first character has no extension. -/
def fileParts (name : Name) : Name × Option Name :=
  match lastDot name with
  | some (c :: before,after) => (c :: before,some after)
  | _ => (name,none)

def fileStem (name : Name) : Name := (fileParts name).1

def listed (name : Name) : Bool := decide ((fileParts name).2 = some json ∧ name.head? ≠ some '.')

/- `str::parse` at an unsigned type whose values lie below `bound`. -/
def parseUnsigned (bound : Nat) (text : Name) : Option Nat :=
  let digits := match text with
    | '+' :: rest => rest
    | _ => text
  if digits ≠ [] ∧ digits.all Char.isDigit ∧ Nat.ofDigitChars 10 digits 0 < bound then
    some (Nat.ofDigitChars 10 digits 0)
  else none

def onHead (c : Char) : List Name → List Name
  | [] => [[c]]
  | component :: rest => (c :: component) :: rest

/- `split("-part-")`; the first `skip` characters belong to a mark already found. -/
def splitFrom : Nat → Name → List Name
  | _, [] => [[]]
  | skip + 1, _ :: rest => splitFrom skip rest
  | 0, c :: rest =>
    if partMark <+: c :: rest then [] :: splitFrom 5 rest else onHead c (splitFrom 0 rest)

def splitOnPart (text : Name) : List Name := splitFrom 0 text

def partIndex (part : Name) : Option Nat := do
  let index ← parseUnsigned (2 ^ 32) part
  if index + 1 < 2 ^ 32 then some (index + 1) else none

def componentsKey : List Name → Option (Nat × List Nat)
  | [] => none
  | first :: components => do
    let sequence ← parseUnsigned (2 ^ 64) first
    let parts ← components.mapM partIndex
    some (sequence,parts)

def batchSortKey (name : Name) : Option (Nat × List Nat) :=
  if batchMark <+: fileStem name then
    componentsKey (splitOnPart ((fileStem name).drop batchMark.length))
  else none

def batchSequence (name : Name) : Option Nat := (batchSortKey name).map Prod.fst

def replacementStem (name : Name) : Name :=
  if (batchSequence name).isSome ∨ splitMark <+: fileStem name then fileStem name
  else splitMark ++ fileStem name

section Parts

theorem lastDotAppend (before : Name) {after : Name} (none_ : '.' ∉ after) :
    lastDot (before ++ '.' :: after) = some (before,after) := by
  have absent {text : Name} (none_ : '.' ∉ text) : lastDot text = none := by
    induction text with
    | nil => rfl
    | cons c rest ih =>
      rw [List.mem_cons,not_or] at none_
      rw [lastDot,ih none_.2]
      exact if_neg fun same => none_.1 same.symm
  induction before with
  | nil =>
    rw [List.nil_append,lastDot,absent none_]
    exact if_pos rfl
  | cons c before ih =>
    rw [List.cons_append,lastDot,ih]

theorem lastDotSome {name before after : Name} (found : lastDot name = some (before,after)) :
    name = before ++ '.' :: after := by
  induction name generalizing before with
  | nil => cases found
  | cons c rest ih =>
    unfold lastDot at found
    split at found
    · rename_i b a inner
      obtain ⟨rfl,rfl⟩ := Prod.mk.inj (Option.some.inj found)
      exact congrArg (c :: ·) (ih inner)
    · split at found
      · rename_i dot
        obtain ⟨rfl,rfl⟩ := Prod.mk.inj (Option.some.inj found)
        rw [dot]
        rfl
      · cases found

def Stem (stem : Name) : Prop := stem ≠ [] ∧ stem.head? ≠ some '.'

theorem partsJson {stem : Name} (proper : Stem stem) :
    fileParts (stem ++ jsonSuffix) = (stem,some json) := by
  obtain ⟨c,rest,rfl⟩ := List.exists_cons_of_ne_nil proper.1
  have found : lastDot (c :: rest ++ jsonSuffix) = some (c :: rest,json) :=
    lastDotAppend _ (by decide)
  rw [fileParts,found]

theorem fileStemJson {stem : Name} (proper : Stem stem) : fileStem (stem ++ jsonSuffix) = stem :=
  congrArg Prod.fst (partsJson proper)

theorem headAppend {stem : Name} (proper : Stem stem) (rest : Name) :
    (stem ++ rest).head? ≠ some '.' := by
  obtain ⟨c,tail,rfl⟩ := List.exists_cons_of_ne_nil proper.1
  exact proper.2

theorem stemAppend {stem : Name} (proper : Stem stem) (rest : Name) : Stem (stem ++ rest) :=
  ⟨List.append_ne_nil_of_left_ne_nil proper.1 _,headAppend proper rest⟩

theorem listedJson {stem : Name} (proper : Stem stem) : listed (stem ++ jsonSuffix) = true := by
  rw [listed,partsJson proper]
  exact decide_eq_true ⟨rfl,headAppend proper _⟩

theorem listedStem {name : Name} (seen : listed name = true) :
    Stem (fileStem name) ∧ name = fileStem name ++ jsonSuffix := by
  obtain ⟨extension,head⟩ := of_decide_eq_true seen
  unfold fileStem
  unfold fileParts at extension ⊢
  split at extension
  · rename_i c before after found
    obtain rfl := Option.some.inj extension
    have same := lastDotSome found
    refine ⟨⟨List.cons_ne_nil _ _,?_⟩,same⟩
    rwa [same] at head
  · cases extension

theorem temporaryHidden (name : Name) : listed (temporary name) = false :=
  decide_eq_false fun seen => seen.2 rfl

theorem temporaryInjective {a b : Name} (same : temporary a = temporary b) : a = b :=
  List.append_cancel_left same

end Parts

section Numbers

theorem paddedDigits {width n : Nat} {c : Char} (mem : c ∈ padded width n) : c.isDigit = true := by
  rcases List.mem_append.mp mem with zeros | digits
  · obtain rfl := List.eq_of_mem_replicate zeros
    rfl
  · exact Nat.isDigit_of_mem_toDigits (by decide) (by decide) digits

theorem paddedValue (width n : Nat) : Nat.ofDigitChars 10 (padded width n) 0 = n := by
  rw [padded,Nat.ofDigitChars_append,Nat.ofDigitChars_replicate_zero,Nat.mul_zero,
    Nat.ofDigitChars_ten_toDigits]

theorem paddedInjective {width m n : Nat} (same : padded width m = padded width n) : m = n := by
  have read := congrArg (Nat.ofDigitChars 10 · 0) same
  simpa only [paddedValue] using read

theorem paddedNonempty (width n : Nat) : padded width n ≠ [] :=
  List.append_ne_nil_of_right_ne_nil _ Nat.toDigits_ne_nil

theorem paddedApart {width n : Nat} {c : Char} (other : c.isDigit = false) : c ∉ padded width n := by
  intro mem
  rw [paddedDigits mem] at other
  cases other

theorem parsedDigits {bound : Nat} {text : Name} {n : Nat} (read : parseUnsigned bound text = some n) :
    ∃ digits, (text = digits ∨ text = '+' :: digits) ∧ (∀ c ∈ digits, c.isDigit = true) ∧ n < bound := by
  unfold parseUnsigned at read
  extract_lets digits at read
  split at read
  · rename_i fits
    obtain rfl := Option.some.inj read
    refine ⟨digits,?_,List.all_eq_true.mp fits.2.1,fits.2.2⟩
    show text = (match text with | '+' :: rest => rest | _ => text) ∨ _
    split
    · exact .inr rfl
    · exact .inl rfl
  · cases read

theorem parsedDash {bound : Nat} {text : Name} {n : Nat} (read : parseUnsigned bound text = some n) :
    '-' ∉ text := by
  obtain ⟨digits,shape,all,_⟩ := parsedDigits read
  have apart : '-' ∉ digits := fun mem => absurd (all '-' mem) (by decide)
  rcases shape with rfl | rfl
  · exact apart
  · exact fun mem => (List.mem_cons.mp mem).elim (by decide) apart

theorem parsePadded (bound width n : Nat) :
    parseUnsigned bound (padded width n) = if n < bound then some n else none := by
  have digits : (match padded width n with | '+' :: rest => rest | _ => padded width n) =
      padded width n := by
    split
    · rename_i rest same
      have plus : '+' ∈ padded width n := same ▸ List.mem_cons_self
      exact absurd plus (paddedApart (by decide))
    · rfl
  have all : (padded width n).all Char.isDigit = true :=
    List.all_eq_true.mpr fun _ mem => paddedDigits mem
  unfold parseUnsigned
  simp only [digits,all,paddedValue,paddedNonempty,ne_eq,not_false_eq_true,true_and]

end Numbers

section Components

def joinOnPart : List Name → Name
  | [] => []
  | [component] => component
  | component :: rest => component ++ partMark ++ joinOnPart rest

theorem joinCons (component : Name) {rest : List Name} (more : rest ≠ []) :
    joinOnPart (component :: rest) = component ++ partMark ++ joinOnPart rest := by
  cases rest with
  | nil => exact absurd rfl more
  | cons => rfl

theorem joinSnoc {components : List Name} (some_ : components ≠ []) (last : Name) :
    joinOnPart (components ++ [last]) = joinOnPart components ++ partMark ++ last := by
  induction components with
  | nil => exact absurd rfl some_
  | cons component rest ih =>
    cases rest with
    | nil => rfl
    | cons next rest =>
      rw [List.cons_append,joinCons _ (by simp),ih (List.cons_ne_nil _ _),
        joinCons component (List.cons_ne_nil _ _)]
      simp only [List.append_assoc]

theorem splitFromNonempty (skip : Nat) (text : Name) : splitFrom skip text ≠ [] := by
  induction text generalizing skip with
  | nil => exact List.cons_ne_nil _ _
  | cons c rest ih =>
    cases skip with
    | succ skip => exact ih skip
    | zero =>
      unfold splitFrom
      split
      · exact List.cons_ne_nil _ _
      · unfold onHead
        split <;> exact List.cons_ne_nil _ _

theorem splitNonempty (text : Name) : splitOnPart text ≠ [] := splitFromNonempty 0 text

theorem joinOnHead (c : Char) {components : List Name} (some_ : components ≠ []) :
    joinOnPart (onHead c components) = c :: joinOnPart components := by
  obtain ⟨component,rest,rfl⟩ := List.exists_cons_of_ne_nil some_
  cases rest <;> rfl

theorem joinSplitFrom (skip : Nat) (text : Name) (fits : skip ≤ text.length) :
    joinOnPart (splitFrom skip text) = text.drop skip := by
  induction text generalizing skip with
  | nil =>
    obtain rfl := Nat.le_zero.mp fits
    rfl
  | cons c rest ih =>
    cases skip with
    | succ skip => exact ih skip (Nat.le_of_succ_le_succ fits)
    | zero =>
      unfold splitFrom
      split
      · rename_i marked
        obtain ⟨tail,same⟩ := marked
        obtain ⟨rfl,rfl⟩ := List.cons_eq_cons.mp same
        rw [joinCons _ (splitFromNonempty _ _),ih 5 (by simp)]
        rfl
      · rw [joinOnHead c (splitFromNonempty _ _),ih 0 (Nat.zero_le _)]
        rfl

theorem joinSplit (text : Name) : joinOnPart (splitOnPart text) = text :=
  joinSplitFrom 0 text (Nat.zero_le _)

theorem splitSkip (mark text : Name) : splitFrom mark.length (mark ++ text) = splitFrom 0 text := by
  induction mark with
  | nil => rfl
  | cons c mark ih => exact ih

theorem splitComponent {component : Name} (plain : '-' ∉ component) (text : Name) :
    splitOnPart (component ++ partMark ++ text) = component :: splitOnPart text := by
  induction component with
  | nil =>
    show splitFrom 0 ('-' :: (partMark.tail ++ text)) = _
    rw [splitFrom,if_pos ⟨text,rfl⟩]
    exact congrArg ([] :: ·) (splitSkip partMark.tail text)
  | cons c component ih =>
    rw [List.mem_cons,not_or] at plain
    have unmarked : ¬ partMark <+: c :: (component ++ partMark ++ text) := by
      rintro ⟨tail,same⟩
      exact plain.1 (List.cons_eq_cons.mp same).1
    show splitFrom 0 (c :: (component ++ partMark ++ text)) = _
    rw [splitFrom,if_neg unmarked]
    exact congrArg (onHead c) (ih plain.2)

theorem splitPlain {component : Name} (plain : '-' ∉ component) : splitOnPart component = [component] := by
  induction component with
  | nil => rfl
  | cons c component ih =>
    rw [List.mem_cons,not_or] at plain
    have unmarked : ¬ partMark <+: c :: component := by
      rintro ⟨tail,same⟩
      exact plain.1 (List.cons_eq_cons.mp same).1
    rw [splitOnPart,splitFrom,if_neg unmarked]
    exact congrArg (onHead c) (ih plain.2)

theorem splitJoin {components : List Name} (some_ : components ≠ [])
    (plain : ∀ component ∈ components, '-' ∉ component) :
    splitOnPart (joinOnPart components) = components := by
  induction components with
  | nil => exact absurd rfl some_
  | cons component rest ih =>
    have here := plain component List.mem_cons_self
    cases rest with
    | nil => exact splitPlain here
    | cons next rest =>
      have later := ih (List.cons_ne_nil _ _) fun other mem => plain other (List.mem_cons_of_mem _ mem)
      rw [joinCons component (List.cons_ne_nil _ _),splitComponent here,later]

end Components

section Keys

theorem partDash {part : Name} {index : Nat} (read : partIndex part = some index) : '-' ∉ part := by
  obtain ⟨n,parsed,_⟩ := Option.bind_eq_some_iff.mp read
  exact parsedDash parsed

theorem partPadded (index : Nat) : partIndex (padded 6 index) =
    if index + 1 < 2 ^ 32 then some (index + 1) else none := by
  unfold partIndex
  rw [parsePadded]
  by_cases small : index < 2 ^ 32
  · rw [if_pos small]
    rfl
  · rw [if_neg small,if_neg (by omega)]
    rfl

theorem partsDash {components : List Name} {parts : List Nat}
    (read : components.mapM partIndex = some parts) : ∀ part ∈ components, '-' ∉ part := by
  induction components generalizing parts with
  | nil => exact nofun
  | cons component rest ih =>
    rw [List.mapM_cons] at read
    obtain ⟨index,first,read⟩ := Option.bind_eq_some_iff.mp read
    obtain ⟨others,later,_⟩ := Option.bind_eq_some_iff.mp read
    intro part mem
    rcases List.mem_cons.mp mem with rfl | mem
    · exact partDash first
    · exact ih later part mem

theorem keyDash {components : List Name} {key : Nat × List Nat}
    (read : componentsKey components = some key) : ∀ part ∈ components, '-' ∉ part := by
  cases components with
  | nil => cases read
  | cons first components =>
    obtain ⟨sequence,parsed,read⟩ := Option.bind_eq_some_iff.mp read
    obtain ⟨parts,indices,_⟩ := Option.bind_eq_some_iff.mp read
    intro part mem
    rcases List.mem_cons.mp mem with rfl | mem
    · exact parsedDash parsed
    · exact partsDash indices part mem

theorem keySnoc {components : List Name} {sequence : Nat} {parts : List Nat}
    (read : componentsKey components = some (sequence,parts)) (last : Name) :
    componentsKey (components ++ [last]) = (partIndex last).map fun index => (sequence,parts ++ [index]) := by
  cases components with
  | nil => cases read
  | cons first components =>
    obtain ⟨number,parsed,read⟩ := Option.bind_eq_some_iff.mp read
    obtain ⟨indices,inner,same⟩ := Option.bind_eq_some_iff.mp read
    obtain ⟨rfl,rfl⟩ := Prod.mk.inj (Option.some.inj same)
    rw [List.cons_append,componentsKey,parsed,List.mapM_append,inner]
    cases index : partIndex last <;> simp [index]

theorem batchStem (sequence : Nat) : Stem (batchMark ++ padded 20 sequence) :=
  stemAppend ⟨List.cons_ne_nil _ _,by decide⟩ _

theorem batchListed (sequence : Nat) : listed (batchName sequence) = true := listedJson (batchStem sequence)

theorem sortKeyStem {stem : Name} (proper : Stem stem) : batchSortKey (stem ++ jsonSuffix) =
    if batchMark <+: stem then componentsKey (splitOnPart (stem.drop batchMark.length)) else none := by
  rw [batchSortKey,fileStemJson proper]

theorem batchKey {sequence : Nat} (fits : sequence < 2 ^ 64) :
    batchSortKey (batchName sequence) = some (sequence,[]) := by
  rw [batchName,sortKeyStem (batchStem sequence),if_pos (List.prefix_append _ _),
    List.drop_left,splitPlain (paddedApart (by decide)),componentsKey,parsePadded,if_pos fits]
  rfl

theorem chunkStem {stem : Name} (proper : Stem stem) (index : Nat) :
    Stem (stem ++ partMark ++ padded 6 index) :=
  stemAppend (stemAppend proper _) _

theorem chunkListed {stem : Name} (proper : Stem stem) (index : Nat) :
    listed (chunkName stem index) = true :=
  listedJson (chunkStem proper index)

/-- The key of a chunk is the key of its source and its own index. From the last 32-bit index on a
chunk has no key. -/
theorem chunkKey {name : Name} (seen : listed name = true) {sequence : Nat} {parts : List Nat}
    (key : batchSortKey name = some (sequence,parts)) (index : Nat) :
    batchSortKey (chunkName (fileStem name) index) =
      if index + 1 < 2 ^ 32 then some (sequence,parts ++ [index + 1]) else none := by
  unfold batchSortKey at key
  split at key
  · rename_i marked
    obtain ⟨rest,shape⟩ := marked
    rw [← shape,List.drop_left] at key
    have read : componentsKey (splitOnPart rest ++ [padded 6 index]) =
        (partIndex (padded 6 index)).map fun index => (sequence,parts ++ [index]) := keySnoc key _
    have split_ : splitOnPart (rest ++ partMark ++ padded 6 index) =
        splitOnPart rest ++ [padded 6 index] := by
      have plain : ∀ part ∈ splitOnPart rest ++ [padded 6 index], '-' ∉ part := by
        intro part mem
        rcases List.mem_append.mp mem with old | new
        · exact keyDash key part old
        · obtain rfl := List.mem_singleton.mp new
          exact paddedApart (by decide)
      have joined : joinOnPart (splitOnPart rest ++ [padded 6 index]) =
          rest ++ partMark ++ padded 6 index := by
        rw [joinSnoc (splitNonempty rest),joinSplit]
      rw [← joined]
      exact splitJoin (by simp) plain
    rw [chunkName,sortKeyStem (chunkStem (listedStem seen).1 index),← shape,
      if_pos (by simp only [List.append_assoc]; exact List.prefix_append _ _)]
    simp only [List.append_assoc,List.drop_left]
    rw [← List.append_assoc,split_,read,partPadded]
    split <;> rfl
  · cases key

theorem chunkInjective {stem : Name} {i j : Nat} (same : chunkName stem i = chunkName stem j) : i = j :=
  paddedInjective (List.append_cancel_left (List.append_cancel_right same))

theorem chunkLonger (stem : Name) (index : Nat) : chunkName stem index ≠ stem ++ jsonSuffix := by
  intro same
  have lengths := congrArg List.length (List.append_cancel_right same)
  rw [List.append_assoc,List.length_append] at lengths
  have mark : 0 < (partMark ++ padded 6 index).length := by simp [partMark]
  omega

theorem chunkBatch (stem : Name) (index sequence : Nat) : chunkName stem index ≠ batchName sequence := by
  intro same
  have text := List.append_cancel_right same
  have mem : 'p' ∈ stem ++ partMark ++ padded 6 index :=
    List.mem_append_left _ (List.mem_append_right _ (by decide))
  rw [text] at mem
  rcases List.mem_append.mp mem with mark | digits
  · exact absurd mark (by decide)
  · exact paddedApart (by decide) digits

theorem replacementSequenced {name : Name} {key : Nat × List Nat} (sequenced : batchSortKey name = some key) :
    replacementStem name = fileStem name := by
  rw [replacementStem,batchSequence,sequenced]
  exact if_pos (.inl rfl)

theorem replacementProper {name : Name} (seen : listed name = true) : Stem (replacementStem name) := by
  unfold replacementStem
  split
  · exact (listedStem seen).1
  · exact stemAppend ⟨List.cons_ne_nil _ _,by decide⟩ _

theorem replacementApart {name : Name} (seen : listed name = true) (index : Nat) :
    chunkName (replacementStem name) index ≠ name := by
  intro same
  have shape := (listedStem seen).2
  unfold replacementStem at same
  split at same
  · exact chunkLonger _ index (same.trans shape)
  · rw [shape] at same
    have lengths := congrArg List.length (List.append_cancel_right same)
    simp only [List.length_append,fileStemJson (listedStem seen).1] at lengths
    have mark : 0 < splitMark.length := by decide
    omega

end Keys

end TelephoneBooth.BatchNames
