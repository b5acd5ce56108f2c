import Capi4Linux.Capi.Capifs
import Mathlib.Data.List.Induction

/-!
# Mount options of capifs

`capifs_remount` reads `uid=`, `gid=` and `mode=` from a list with commas and
sets `config` when it has understood all of it. Owner and permissions of a node
come from the `config` there is when the node is made.
-/

namespace Capi4Linux.Capi
open Bytes Capicore Machine Sprintf

/-! ## The source -/

/-- `sscanf` with `%i` and with `%o`: the number, and what is left of the string. What was printed is read back. -/
structure Sscanf where
  int : Bytes → Option (UInt32 × Bytes)
  octal : Bytes → Option (UInt32 × Bytes)
  int_decimal : ∀ n, n < 2 ^ 31 → int (decimal n) = some (UInt32.ofNat n, [])
  octal_digits : ∀ n, n < 2 ^ 31 → octal (digits 8 n) = some (UInt32.ofNat n, [])

/-- `sscanf(this_char, "uid=%i%c", &n, &dummy) == 1`, with the name and the conversion as parameters. -/
def optionNumber (name : Bytes) (conversion : Bytes → Option (UInt32 × Bytes)) (thisChar : Bytes) : Option UInt32 :=
  if name <+: thisChar then
    match conversion (thisChar.drop name.length) with
    | some (n, []) => some n
    | _ => none
  else none

/-- The loop over what `strsep` returns. -/
def remountLoop (scan : Sscanf) : List Bytes → CapifsConfig → Option CapifsConfig
  | [], config => some config
  | thisChar :: rest, config =>
    if thisChar = [] then remountLoop scan rest config
    else if let some n := optionNumber (ascii "uid=") scan.int thisChar then
      remountLoop scan rest { config with setuid := true, uid := n }
    else if let some n := optionNumber (ascii "gid=") scan.int thisChar then
      remountLoop scan rest { config with setgid := true, gid := n }
    else if let some n := optionNumber (ascii "mode=") scan.octal thisChar then
      remountLoop scan rest { config with mode := (n &&& ~~~0xF000).toUInt16 }
    else none

/-- `capifs_remount`; `data` may be NULL. -/
def capifsRemount (scan : Sscanf) (fs : Capifs) (data : Option Bytes) : Int × Capifs :=
  match remountLoop scan (data.elim [] fun s => s.splitOn 44) Capifs.init.config with
  | some config => (0, { fs with config })
  | none => (- EINVAL, fs)

/-! ## What it is for -/

inductive MountOption where
  | uid (n : UInt32)
  | gid (n : UInt32)
  | mode (n : UInt32)
  deriving DecidableEq

namespace MountOption

/-- How an option is written. -/
def text : MountOption → Bytes
  | uid n => ascii "uid=" ++ decimal n.toNat
  | gid n => ascii "gid=" ++ decimal n.toNat
  | mode n => ascii "mode=" ++ digits 8 n.toNat

/-- The number is one that an `int` holds. -/
def Fits : MountOption → Prop
  | uid n | gid n | mode n => n.toNat < 2 ^ 31

def uid? : MountOption → Option UInt32
  | uid n => some n
  | _ => none

def gid? : MountOption → Option UInt32
  | gid n => some n
  | _ => none

def mode? : MountOption → Option UInt32
  | mode n => some n
  | _ => none

/-- What an option text that is not empty says. -/
def read (scan : Sscanf) (s : Bytes) : Option MountOption :=
  ((optionNumber (ascii "uid=") scan.int s).map uid).or
    (((optionNumber (ascii "gid=") scan.int s).map gid).or ((optionNumber (ascii "mode=") scan.octal s).map mode))

end MountOption

/-- The options of a string, if there is nothing else in it; empty ones do not count. -/
def mountOptions (scan : Sscanf) (data : Option Bytes) : Option (List MountOption) :=
  ((data.elim [] fun s => s.splitOn 44).filter (· ≠ [])).mapM (MountOption.read scan)

/-- The last option of a kind. -/
def lastOf (kind : MountOption → Option UInt32) (options : List MountOption) : Option UInt32 :=
  (options.filterMap kind).getLast?

/-- The permissions that options ask for. -/
def permissions (options : List MountOption) : UInt16 :=
  ((lastOf MountOption.mode? options).map fun n => (n &&& ~~~0xF000).toUInt16).getD 0o600

/-- What options ask for: the last of each kind counts. -/
structure Asked (options : List MountOption) (config : CapifsConfig) : Prop where
  setuid : config.setuid = (lastOf MountOption.uid? options).isSome
  uid : config.uid = (lastOf MountOption.uid? options).getD 0
  setgid : config.setgid = (lastOf MountOption.gid? options).isSome
  gid : config.gid = (lastOf MountOption.gid? options).getD 0
  mode : config.mode = permissions options

/-- One option more. -/
def MountOption.apply (config : CapifsConfig) : MountOption → CapifsConfig
  | uid n => { config with setuid := true, uid := n }
  | gid n => { config with setgid := true, gid := n }
  | mode n => { config with mode := (n &&& ~~~0xF000).toUInt16 }

section Options

variable {scan : Sscanf}

/-- One turn of the loop. -/
theorem remountLoop_cons {s : Bytes} (nonempty : s ≠ []) (tokens : List Bytes) (config : CapifsConfig) :
    remountLoop scan (s :: tokens) config =
      (MountOption.read scan s).bind fun o => remountLoop scan tokens (o.apply config) := by
  rw [remountLoop, if_neg nonempty]
  unfold MountOption.read
  cases optionNumber (ascii "uid=") scan.int s with
  | some n => rfl
  | none =>
    cases optionNumber (ascii "gid=") scan.int s with
    | some n => rfl
    | none =>
      cases optionNumber (ascii "mode=") scan.octal s with
      | some n => rfl
      | none => rfl

/-- The loop applies the options one after the other, if all can be read. -/
theorem remountLoop_eq (tokens : List Bytes) : ∀ config, remountLoop scan tokens config =
    ((tokens.filter (· ≠ [])).mapM (MountOption.read scan)).map fun options => options.foldl MountOption.apply config := by
  induction tokens with
  | nil => exact fun _ => rfl
  | cons s tokens ih =>
    intro config
    by_cases empty : s = []
    · rw [remountLoop, if_pos empty, ih, List.filter_cons_of_neg (by simp [empty])]
    · rw [remountLoop_cons empty, List.filter_cons_of_pos (by simp [empty]), List.mapM_cons]
      cases MountOption.read scan s with
      | none => rfl
      | some o =>
        rw [Option.bind_some, ih]
        cases (tokens.filter (· ≠ [])).mapM (MountOption.read scan) with
        | none => rfl
        | some options => rfl

theorem lastOf_concat (kind : MountOption → Option UInt32) (options : List MountOption) (o : MountOption) :
    lastOf kind (options ++ [o]) = (kind o).or (lastOf kind options) := by
  unfold lastOf
  rw [List.filterMap_append]
  cases here : kind o with
  | none => rw [List.filterMap_cons_none here, List.filterMap_nil, List.append_nil, Option.none_or]
  | some n => rw [List.filterMap_cons_some here, List.filterMap_nil, List.getLast?_concat, Option.some_or]

/-- One option more is followed too. -/
theorem Asked.apply {options : List MountOption} {config : CapifsConfig} (asked : Asked options config) (o : MountOption) :
    Asked (options ++ [o]) (o.apply config) := by
  obtain ⟨setuid, uid, setgid, gid, mode⟩ := asked
  unfold permissions at mode
  cases o with
  | uid n =>
    constructor
    · rw [lastOf_concat]
      rfl
    · rw [lastOf_concat]
      rfl
    · rw [lastOf_concat]
      exact setgid
    · rw [lastOf_concat]
      exact gid
    · rw [permissions, lastOf_concat]
      exact mode
  | gid n =>
    constructor
    · rw [lastOf_concat]
      exact setuid
    · rw [lastOf_concat]
      exact uid
    · rw [lastOf_concat]
      rfl
    · rw [lastOf_concat]
      rfl
    · rw [permissions, lastOf_concat]
      exact mode
  | mode n =>
    constructor
    · rw [lastOf_concat]
      exact setuid
    · rw [lastOf_concat]
      exact uid
    · rw [lastOf_concat]
      exact setgid
    · rw [lastOf_concat]
      exact gid
    · rw [permissions, lastOf_concat]
      rfl

/-- The options applied are those asked for. -/
theorem asked_foldl (options : List MountOption) :
    Asked options (options.foldl MountOption.apply Capifs.init.config) := by
  induction options using List.reverseRecOn with
  | nil => exact ⟨rfl, rfl, rfl, rfl, rfl⟩
  | append_singleton options o ih =>
    rw [List.foldl_append]
    exact ih.apply o

/-! ## Reading back -/

theorem optionNumber_text {name s : Bytes} {conversion : Bytes → Option (UInt32 × Bytes)} {n : UInt32}
    (scanned : conversion s = some (n, [])) : optionNumber name conversion (name ++ s) = some n := by
  unfold optionNumber
  rw [if_pos (List.prefix_append name s), List.drop_left, scanned]

/-- An option with another letter is not. -/
theorem optionNumber_other {c d : UInt8} {name s : Bytes} (conversion : Bytes → Option (UInt32 × Bytes))
    (other : c ≠ d) : optionNumber (c :: name) conversion (d :: s) = none := by
  unfold optionNumber
  rw [if_neg]
  exact fun starts => other (List.cons_prefix_cons.1 starts).1

/-- An option is read from its text. -/
theorem MountOption.read_text {o : MountOption} (fits : o.Fits) : MountOption.read scan o.text = some o := by
  unfold MountOption.read
  cases o with
  | uid n =>
    have back := scan.int_decimal n.toNat fits
    rw [UInt32.ofNat_toNat] at back
    rw [text, optionNumber_text back]
    rfl
  | gid n =>
    have back := scan.int_decimal n.toNat fits
    rw [UInt32.ofNat_toNat] at back
    have notUid : optionNumber (ascii "uid=") scan.int (text (gid n)) = none := optionNumber_other _ (by decide)
    rw [notUid, text, optionNumber_text back]
    rfl
  | mode n =>
    have back := scan.octal_digits n.toNat fits
    rw [UInt32.ofNat_toNat] at back
    have notUid : optionNumber (ascii "uid=") scan.int (text (mode n)) = none := optionNumber_other _ (by decide)
    have notGid : optionNumber (ascii "gid=") scan.int (text (mode n)) = none := optionNumber_other _ (by decide)
    rw [notUid, notGid, text, optionNumber_text back]
    rfl

/-- The text of an option has no comma. -/
theorem MountOption.comma_notMem_text (o : MountOption) : (44 : UInt8) ∉ o.text := by
  have number {base n : Nat} (pos : 0 < base) (small : base ≤ 10) : (44 : UInt8) ∉ digits base n := by
    intro mem
    obtain ⟨low, -⟩ := mem_digits pos small mem
    revert low
    decide
  cases o with
  | uid n => exact fun mem => (List.mem_append.1 mem).elim (by decide) (number (by decide) (by decide))
  | gid n => exact fun mem => (List.mem_append.1 mem).elim (by decide) (number (by decide) (by decide))
  | mode n => exact fun mem => (List.mem_append.1 mem).elim (by decide) (number (by decide) (by decide))

theorem MountOption.text_ne_nil (o : MountOption) : o.text ≠ [] := by
  cases o with
  | uid n => exact fun empty => by cases empty
  | gid n => exact fun empty => by cases empty
  | mode n => exact fun empty => by cases empty

/-- Options are read from their texts. -/
theorem mapM_read_text {options : List MountOption} (fits : ∀ o ∈ options, o.Fits) :
    (options.map MountOption.text).mapM (MountOption.read scan) = some options := by
  induction options with
  | nil => rfl
  | cons o options ih =>
    rw [List.map_cons, List.mapM_cons, MountOption.read_text (fits o List.mem_cons_self),
      ih fun o' mem => fits o' (List.mem_cons_of_mem o mem)]
    rfl

/-- Options that are written with commas are read back. -/
theorem mountOptions_text {options : List MountOption} (fits : ∀ o ∈ options, o.Fits) :
    mountOptions scan (some ([44].intercalate (options.map MountOption.text))) = some options := by
  unfold mountOptions
  rw [Option.elim_some]
  by_cases none : options = []
  · subst none
    rfl
  · rw [List.splitOn_intercalate 44 (fun s mem => ?_) (fun empty => none (List.map_eq_nil_iff.1 empty)), List.filter_eq_self.2]
    · exact mapM_read_text fits
    · intro s mem
      obtain ⟨o, -, rfl⟩ := List.mem_map.1 mem
      exact decide_eq_true o.text_ne_nil
    · obtain ⟨o, -, rfl⟩ := List.mem_map.1 mem
      exact o.comma_notMem_text

/-! ## Permissions -/

/-- A mask is applied to both parts of a mode. -/
theorem mode_and (a b mask : UInt16) : (a ||| b) &&& mask = a &&& mask ||| b &&& mask := by
  apply UInt16.toBitVec_inj.1
  simp only [UInt16.toBitVec_and, UInt16.toBitVec_or]
  exact BitVec.and_or_distrib_right

/-- The permissions have no file type. -/
theorem permissions_clear (options : List MountOption) : permissions options &&& 0xF000 = 0 := by
  unfold permissions
  cases lastOf MountOption.mode? options with
  | none => decide
  | some n =>
    rw [Option.map_some, Option.getD_some, UInt32.toUInt16_and, UInt16.and_assoc]
    have gone : (~~~0xF000 : UInt32).toUInt16 &&& 0xF000 = 0 := by decide
    rw [gone, UInt16.and_zero]

/-- The mask of the node leaves the permissions as they are. -/
theorem permissions_kept (options : List MountOption) : permissions options &&& 0xFFF = permissions options := by
  unfold permissions
  cases lastOf MountOption.mode? options with
  | none => decide
  | some n =>
    rw [Option.map_some, Option.getD_some, UInt32.toUInt16_and, UInt16.and_assoc]
    congr 1

/-- A remount follows its options or fails and changes nothing. -/
theorem remount_cases (scan : Sscanf) (fs : Capifs) (data : Option Bytes) :
    (∃ options, mountOptions scan data = some options ∧
      capifsRemount scan fs data = (0, { fs with config := options.foldl MountOption.apply Capifs.init.config })) ∨
      mountOptions scan data = none ∧ capifsRemount scan fs data = (- EINVAL, fs) := by
  unfold capifsRemount
  rw [remountLoop_eq]
  cases parsed : mountOptions scan data with
  | none =>
    refine .inr ⟨rfl, ?_⟩
    unfold mountOptions at parsed
    rw [parsed]
    rfl
  | some options =>
    refine .inl ⟨options, rfl, ?_⟩
    unfold mountOptions at parsed
    rw [parsed]
    rfl

end Options

/-! ## A scanner -/

/-- The digits at the beginning of a string. -/
def scanDigits (base : Nat) (acc : Nat) : Bytes → Nat × Bytes
  | [] => (acc, [])
  | c :: s =>
    if 48 ≤ c.toNat ∧ c.toNat < 48 + base then scanDigits base (acc * base + (c.toNat - 48)) s else (acc, c :: s)

/-- The digits of a number are read to their end. -/
theorem scanDigits_digits {base : Nat} (large : 1 < base) (small : base ≤ 10) (n : Nat) :
    ∀ s, scanDigits base 0 (digits base n ++ s) = scanDigits base n s := by
  have table : ∀ d < 10, (UInt8.ofNat (Nat.digitChar d).toNat).toNat = 48 + d := by decide
  have turn (acc d : Nat) (s : Bytes) (digit : d < base) :
      scanDigits base acc (UInt8.ofNat (Nat.digitChar d).toNat :: s) = scanDigits base (acc * base + d) s := by
    have value := table d (by omega)
    rw [scanDigits, if_pos (by omega), value, Nat.add_sub_cancel_left]
  induction n using Nat.strongRecOn with
  | ind n ih =>
    intro s
    unfold digits at ih ⊢
    rw [Nat.toDigits_eq_if large]
    split
    · rename_i single
      rw [List.map_singleton, List.singleton_append, turn 0 n s single, Nat.zero_mul, Nat.zero_add]
    · rw [List.map_append, List.append_assoc, ih (n / base) (Nat.div_lt_self (by omega) large), List.map_singleton,
        List.singleton_append, turn _ _ _ (Nat.mod_lt n (by omega)), Nat.mul_comm, Nat.div_add_mod]

/-- A number without a sign or a prefix. -/
def scanNumber (base : Nat) (s : Bytes) : Option (UInt32 × Bytes) :=
  let (n, rest) := scanDigits base 0 s
  if rest.length = s.length then none else some (UInt32.ofNat n, rest)

/-- The digits of a number are read as the number. -/
theorem scanNumber_digits {base : Nat} (large : 1 < base) (small : base ≤ 10) (n : Nat) :
    scanNumber base (digits base n) = some (UInt32.ofNat n, []) := by
  have scanned := scanDigits_digits large small n []
  rw [List.append_nil] at scanned
  have some : (digits base n).length ≠ 0 := by
    unfold digits
    rw [List.length_map]
    exact fun none => Nat.toDigits_ne_nil (List.length_eq_zero_iff.1 none)
  unfold scanNumber
  rw [scanned, scanDigits]
  exact if_neg fun same => some same.symm

/-- `sscanf`, as far as numbers without a sign or a prefix go. -/
def plainScan : Sscanf where
  int := scanNumber 10
  octal := scanNumber 8
  int_decimal n _ := scanNumber_digits (by decide) (by decide) n
  octal_digits n _ := scanNumber_digits (by decide) (by decide) n

/-! ## Mounts and nodes -/

/-- The file system, and the options that were accepted so far, the last ones first. -/
structure Mounting where
  fs : Capifs
  accepted : List (Option Bytes)

inductive CapifsOp where
  | remount (data : Option Bytes)
  | newNcci (number : Nat) (device : Nat × Nat)
  | freeNcci (number : Nat)

namespace Mounting

/-- Mounted without options. -/
def init : Mounting := ⟨.init, [none]⟩

def step (scan : Sscanf) (env : CapifsEnv) (s : Mounting) : CapifsOp → Option Mounting
  | .remount data =>
    let (r, fs) := capifsRemount scan s.fs data
    some ⟨fs, if r = 0 then data :: s.accepted else s.accepted⟩
  | .newNcci number device => (capifsNewNcci env s.fs number device).map fun fs => { s with fs }
  | .freeNcci number => (capifsFreeNcci env s.fs number).map fun fs => { s with fs }

end Mounting

/-- A character device with the owner and the permissions that options ask for. -/
structure MadeUnder (env : CapifsEnv) (options : List MountOption) (inode : Inode) : Prop where
  device : inode.mode &&& 0xF000 = S_IFCHR
  mode : inode.mode &&& 0xFFF = permissions options
  owner : ∃ t, inode.uid = (lastOf MountOption.uid? options).getD (env.fsuid t) ∧
    inode.gid = (lastOf MountOption.gid? options).getD (env.fsgid t)

namespace Mounting

/-- The options accepted last are in force, and every node was made under options that were accepted. -/
structure Followed (scan : Sscanf) (env : CapifsEnv) (s : Mounting) : Prop where
  current : ∃ data rest options, s.accepted = data :: rest ∧ mountOptions scan data = some options ∧
    Asked options s.fs.config
  nodes : ∀ name inode, s.fs.nodes name = some inode →
    ∃ data ∈ s.accepted, ∃ options, mountOptions scan data = some options ∧ MadeUnder env options inode

/-- A remount accepts a string of options or refuses it as a whole; the nodes that are there stay as they are. -/
def Remounted (scan : Sscanf) (s : Mounting) (op : CapifsOp) (s' : Mounting) : Prop :=
  match op with
  | .remount data =>
    s'.fs.nodes = s.fs.nodes ∧
      ((∃ options, mountOptions scan data = some options ∧ capifsRemount scan s.fs data = (0, s'.fs) ∧
          Asked options s'.fs.config ∧ s'.accepted = data :: s.accepted) ∨
        mountOptions scan data = none ∧ capifsRemount scan s.fs data = (- EINVAL, s.fs) ∧ s' = s)
  | _ => s'.fs.config = s.fs.config ∧ s'.accepted = s.accepted

section Steps

variable {scan : Sscanf} {env : CapifsEnv} {s s' : Mounting}

theorem followed_init (scan : Sscanf) (env : CapifsEnv) : Followed scan env init where
  current := ⟨none, [], [], rfl, rfl, asked_foldl []⟩
  nodes _ _ found := by cases found

/-- A remount does what its options say. -/
theorem step_remounted {op : CapifsOp} (run : step scan env s op = some s') : Remounted scan s op s' := by
  cases op with
  | remount data =>
    rw [step] at run
    rcases remount_cases scan s.fs data with ⟨options, parsed, remounts⟩ | ⟨bogus, refused⟩
    · rw [remounts] at run
      cases run
      exact ⟨rfl, .inl ⟨options, parsed, remounts, asked_foldl options, rfl⟩⟩
    · rw [refused] at run
      cases run
      exact ⟨rfl, .inr ⟨bogus, refused, rfl⟩⟩
  | newNcci number device =>
    obtain ⟨fs, made, rfl⟩ := Option.map_eq_some_iff.1 run
    refine ⟨?_, rfl⟩
    unfold capifsNewNcci at made
    dsimp only at made
    split at made
    · cases made
      rfl
    · obtain ⟨name, -, made⟩ := Option.bind_eq_some_iff.1 made
      split at made
      · cases made
        rfl
      · cases made
        rfl
  | freeNcci number =>
    obtain ⟨fs, freed, rfl⟩ := Option.map_eq_some_iff.1 run
    refine ⟨?_, rfl⟩
    obtain ⟨name, -, freed⟩ := Option.bind_eq_some_iff.1 freed
    split at freed
    · cases freed
      rfl
    · cases freed
      rfl

/-- What a new node looks like. -/
theorem madeUnder_new {options : List MountOption} {config : CapifsConfig} (asked : Asked options config) (t ino : Nat)
    (rdev : Nat × Nat) :
    MadeUnder env options
      ⟨ino, if config.setuid then config.uid else env.fsuid t, if config.setgid then config.gid else env.fsgid t,
        S_IFCHR ||| config.mode, rdev⟩ where
  device := by
    have kind : S_IFCHR &&& 0xF000 = S_IFCHR := by decide
    dsimp only
    rw [asked.mode, mode_and, permissions_clear, kind, UInt16.or_zero]
  mode := by
    have kind : S_IFCHR &&& 0xFFF = 0 := by decide
    dsimp only
    rw [asked.mode, mode_and, permissions_kept, kind, UInt16.zero_or]
  owner := by
    refine ⟨t, ?_, ?_⟩
    · dsimp only
      rw [asked.setuid, asked.uid]
      cases lastOf MountOption.uid? options with
      | none => rfl
      | some n => rfl
    · dsimp only
      rw [asked.setgid, asked.gid]
      cases lastOf MountOption.gid? options with
      | none => rfl
      | some n => rfl

/-- A call that makes a node makes it under the options in force; the other nodes stay. -/
theorem newNcci_nodes {fs fs' : Capifs} {options : List MountOption} {number : Nat} {device : Nat × Nat}
    (asked : Asked options fs.config) (run : capifsNewNcci env fs number device = some fs') {name : Bytes} {inode : Inode}
    (found : fs'.nodes name = some inode) : fs.nodes name = some inode ∨ MadeUnder env options inode := by
  unfold capifsNewNcci at run
  dsimp only at run
  split at run
  · cases run
    exact .inl found
  · obtain ⟨new, -, run⟩ := Option.bind_eq_some_iff.1 run
    split at run
    · cases run
      dsimp only at found
      by_cases same : name = new
      · subst same
        rw [Function.update_self] at found
        cases found
        exact .inr (madeUnder_new asked _ _ _)
      · rw [Function.update_of_ne same] at found
        exact .inl found
    · cases run
      exact .inl found

theorem freeNcci_nodes {fs fs' : Capifs} {number : Nat} (run : capifsFreeNcci env fs number = some fs') {name : Bytes}
    {inode : Inode} (found : fs'.nodes name = some inode) : fs.nodes name = some inode := by
  obtain ⟨gone, -, run⟩ := Option.bind_eq_some_iff.1 run
  split at run
  · cases run
    dsimp only at found
    by_cases same : name = gone
    · subst same
      rw [Function.update_self] at found
      cases found
    · rw [Function.update_of_ne same] at found
      exact found
  · cases run
    exact found

/-- Every step keeps the nodes to the options of their time. -/
theorem Followed.step {op : CapifsOp} (followed : Followed scan env s) (run : step scan env s op = some s') :
    Followed scan env s' := by
  obtain ⟨⟨data, rest, options, accepted, parsed, asked⟩, nodes⟩ := followed
  have effect := step_remounted run
  cases op with
  | remount new =>
    obtain ⟨same, ⟨options', parsed', -, asked', accepted'⟩ | ⟨-, -, rfl⟩⟩ := effect
    · refine ⟨⟨new, s.accepted, options', accepted', parsed', asked'⟩, fun name inode found => ?_⟩
      rw [same] at found
      obtain ⟨old, mem, made⟩ := nodes name inode found
      exact ⟨old, accepted' ▸ List.mem_cons_of_mem new mem, made⟩
    · exact ⟨⟨data, rest, options, accepted, parsed, asked⟩, nodes⟩
  | newNcci number device =>
    obtain ⟨fs, made, rfl⟩ := Option.map_eq_some_iff.1 run
    have config : fs.config = s.fs.config := effect.1
    refine ⟨⟨data, rest, options, accepted, parsed, config ▸ asked⟩, fun name inode found => ?_⟩
    rcases newNcci_nodes asked made found with old | new
    · exact nodes name inode old
    · exact ⟨data, accepted ▸ List.mem_cons_self, options, parsed, new⟩
  | freeNcci number =>
    obtain ⟨fs, freed, rfl⟩ := Option.map_eq_some_iff.1 run
    have config : fs.config = s.fs.config := effect.1
    exact ⟨⟨data, rest, options, accepted, parsed, config ▸ asked⟩,
      fun name inode found => nodes name inode (freeNcci_nodes freed found)⟩

end Steps

/-- Options that are written with commas are read back. In every run of mounts and calls from `capi.c`, a string of
options is taken as a whole or refused as a whole, the last options that were taken are in force, and every node is
a character device with the owner and the permissions of options that were taken. -/
theorem mount_options_followed (scan : Sscanf) (env : CapifsEnv) (ops : List CapifsOp) :
    (∀ options : List MountOption, (∀ o ∈ options, o.Fits) →
        mountOptions scan (some ([44].intercalate (options.map MountOption.text))) = some options) ∧
      Each (step scan env) (Remounted scan) init ops ∧ Always (step scan env) (Followed scan env) init ops := by
  have all := Meets.unconditional (step scan env) init ops
  have keep : ∀ s op s', Followed scan env s → True → step scan env s op = some s' →
      Remounted scan s op s' ∧ Followed scan env s' :=
    fun s op s' followed _ run => ⟨step_remounted run, followed.step run⟩
  refine ⟨fun options fits => mountOptions_text fits, ?_, ?_⟩
  · exact each_of_inv (Followed scan env) keep (followed_init scan env) all
  · exact always_of_inv (fun s op s' followed ok run => (keep s op s' followed ok run).2) (followed_init scan env) all

/-- A node is made under the first options, a string with an unknown option is refused, and other options follow. -/
def remountedTwice : List CapifsOp :=
  [.remount (some (ascii "uid=501,mode=620")), .newNcci 3 (191, 3), .remount (some (ascii "gid=7,size=4")),
    .remount (some (ascii "gid=20"))]

theorem mount_options_followed_twice :
    mountOptions plainScan (some (ascii "uid=501,mode=620")) = some [.uid 501, .mode 0o620] ∧
      Each (step plainScan .granting) (Remounted plainScan) init remountedTwice ∧
      ∃ s, exec (step plainScan .granting) init remountedTwice = some s ∧ Followed plainScan .granting s ∧
        s.accepted = [some (ascii "gid=20"), some (ascii "uid=501,mode=620"), none] ∧
        s.fs.config = ⟨false, true, 0, 20, 0o600⟩ ∧
        s.fs.nodes (decimal 3) = some ⟨5, 501, 0, S_IFCHR ||| 0o620, (191, 3)⟩ := by
  obtain ⟨readBack, remounted, followed⟩ := mount_options_followed plainScan .granting remountedTwice
  have written : [44].intercalate ([MountOption.uid 501, .mode 0o620].map MountOption.text) = ascii "uid=501,mode=620" := by
    decide
  have fits : ∀ o ∈ [MountOption.uid 501, .mode 0o620], o.Fits := by
    intro o mem
    rcases List.mem_pair.1 mem with rfl | rfl
    · show (501 : UInt32).toNat < 2 ^ 31
      decide
    · show (0o620 : UInt32).toNat < 2 ^ 31
      decide
  have back := readBack _ fits
  rw [written] at back
  have run : exec (step plainScan .granting) init remountedTwice =
      some ⟨⟨1, ⟨false, true, 0, 20, 0o600⟩, Function.update (fun _ => none) (decimal 3)
        (some ⟨5, 501, 0, S_IFCHR ||| 0o620, (191, 3)⟩)⟩,
        [some (ascii "gid=20"), some (ascii "uid=501,mode=620"), none]⟩ := rfl
  exact ⟨back, remounted, _, run, followed.last run, rfl, rfl, rfl⟩

end Mounting

end Capi4Linux.Capi
