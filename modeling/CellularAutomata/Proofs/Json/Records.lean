import CellularAutomata.Json.RunForm
import CellularAutomata.Proofs.Json.Texts
import CellularAutomata.Proofs.Keys

/-!
# Trees of values

A tree conveys a value when it is written as it is read and its reader reads the value. Lists,
records and maps convey what they hold as soon as their parts do, so each type of value needs to
name its fields only.
-/

namespace CellularAutomata

namespace Json

variable {α β : Type} {read : Value → Option α}

/-- A tree conveys a value to a reader: it survives being written, and it is read as the value. -/
structure Conveys (read : Value → Option α) (v : Value) (a : α) : Prop where
  /-- The tree is written as it is read. -/
  writable : Writable v
  /-- The tree is read as the value. -/
  read_eq : read v = some a

/-- A value whose tree conveys it is read from the compact text of the tree. -/
theorem Conveys.parse {v : Value} {a : α} (h : Conveys read v a) :
    (parse v.compact).bind read = some a := by
  rw [parse_compact h.writable, Option.bind_some, h.read_eq]

/-- A text is conveyed. -/
theorem conveys_text (s : String) : Conveys Value.text? (.ofText s) s where
  writable := .string fun _ => canonical_of_mem_encode
  read_eq := by rw [Value.ofText, Value.text?, decode_encode, Option.map_some, String.ofList_toList]

/-- A signed 32-bit number is conveyed. -/
theorem conveys_int32 {n : Int} (h : Numeral.leastInt32 ≤ n ∧ n ≤ Numeral.mostInt32) :
    Conveys Value.int32? (.ofInt n) n where
  writable := .number (Numeral.Written.wellFormed_ofInt n)
  read_eq := Value.int32?_ofInt h

/-- A natural number of up to 64 bits is conveyed. -/
theorem conveys_natural {bits n : Nat} (h : n < 2 ^ bits) (hbits : bits ≤ 64) :
    Conveys (Value.naturalBelow? bits) (.ofInt n) n where
  writable := .number (Numeral.Written.wellFormed_ofInt n)
  read_eq := Value.naturalBelow?_ofInt h hbits

/-- What is read of each element of a list is read of all of them. -/
theorem mapM_map_of_forall {write : β → α} {f : α → Option β} {bs : List β}
    (h : ∀ b ∈ bs, f (write b) = some b) : (bs.map write).mapM f = some bs := by
  induction bs with
  | nil => rfl
  | cons b bs ih =>
    rw [List.map_cons, List.mapM_cons, h b List.mem_cons_self,
      ih fun c hc => h c (List.mem_cons_of_mem b hc)]
    rfl

/-- A list is conveyed when its elements are. -/
theorem conveys_list {write : α → Value} {as : List α}
    (h : ∀ a ∈ as, Conveys read (write a) a) : Conveys (list? read) (.array (as.map write)) as where
  writable := by
    refine .array fun v hv => ?_
    obtain ⟨a, ha, rfl⟩ := List.mem_map.mp hv
    exact (h a ha).writable
  read_eq := mapM_map_of_forall fun a ha => (h a ha).read_eq

/-- What may be absent is conveyed, absent or not, when no value is written as `null`. -/
theorem conveys_option {write : α → Value} {a? : Option α}
    (hnull : ∀ a, write a ≠ .null) (h : ∀ a ∈ a?, Conveys read (write a) a) :
    Conveys (fun v => option? read (some v)) (ofOption write a?) a? where
  writable := by
    cases a? with
    | none => exact .null
    | some a => exact (h a rfl).writable
  read_eq := by
    cases a? with
    | none => rfl
    | some a =>
      have hread := (h a rfl).read_eq
      change option? read (some (write a)) = some (some a)
      unfold option?
      split
      next heq => cases heq
      next heq => exact absurd (Option.some.inj heq) (hnull a)
      next heq => rw [← Option.some.inj heq, hread]; rfl

/-- The tree of a record is written as it is read when the trees of its fields are. -/
theorem writable_ofMembers {members : List (String × Value)} (h : ∀ m ∈ members, Writable m.2) :
    Writable (.ofMembers members) := by
  refine .object ?_ ?_
  · intro m hm i hi
    obtain ⟨member, -, rfl⟩ := List.mem_map.mp hm
    exact canonical_of_mem_encode hi
  · intro m hm
    obtain ⟨member, hmember, rfl⟩ := List.mem_map.mp hm
    exact h member hmember

/-- The names of members are read as they are written. -/
theorem namedMembers?_encode (members : List (String × Value)) :
    namedMembers? (members.map fun member => (encode member.1.toList, member.2)) =
      some members := by
  induction members with
  | nil => rfl
  | cons member members ih =>
    rw [List.map_cons, namedMembers?, decode_encode, ih, Option.bind_eq_bind, Option.bind_some,
      Option.bind_eq_bind, Option.bind_some, String.ofList_toList]
    rfl

/-- Among members of different names each is found by its name. -/
theorem soleMember?_of_nodup {members : List (String × Value)}
    (hdistinct : (members.map Prod.fst).Nodup) {member : String × Value} (h : member ∈ members) :
    soleMember? members member.1 = some (some member.2) := by
  have hfilter : members.filter (fun other => other.1 == member.1) = [member] := by
    induction members with
    | nil => cases h
    | cons first members ih =>
      rw [List.map_cons, List.nodup_cons] at hdistinct
      rcases List.mem_cons.mp h with rfl | hmem
      · have hnone : members.filter (fun other => other.1 == member.1) = [] := by
          refine List.filter_eq_nil_iff.mpr fun other hother heq => ?_
          exact hdistinct.1 (List.mem_map.mpr ⟨other, hother, beq_iff_eq.mp heq⟩)
        rw [List.filter_cons_of_pos (by simp), hnone]
      · have hne : (first.1 == member.1) = false := by
          rw [beq_eq_false_iff_ne]
          intro heq
          exact hdistinct.1 (List.mem_map.mpr ⟨member, hmem, heq.symm⟩)
        rw [List.filter_cons_of_neg (by simp [hne]), ih hdistinct.2 hmem]
  rw [soleMember?, hfilter]

/-- The fields of a record are read from its object as they are written. -/
theorem objectFields?_encode {members : List (String × Value)}
    (hdistinct : (members.map Prod.fst).Nodup) :
    objectFields? (members.map Prod.fst)
        (members.map fun member => (encode member.1.toList, member.2)) =
      some (members.map fun member => some member.2) := by
  have hfields : ∀ found ⊆ members, (found.map Prod.fst).mapM (soleMember? members) =
      some (found.map fun member => some member.2) := by
    intro found hfound
    induction found with
    | nil => rfl
    | cons member found ih =>
      rw [List.map_cons, List.mapM_cons, soleMember?_of_nodup hdistinct (hfound List.mem_cons_self),
        ih fun m hm => hfound (List.mem_cons_of_mem member hm)]
      rfl
  rw [objectFields?, namedMembers?_encode, Option.bind_eq_bind, Option.bind_some]
  exact hfields members (List.Subset.refl _)

/-- The fields of a record are read as they are written. -/
theorem fields?_ofMembers {names : List String} {members : List (String × Value)}
    (hnames : members.map Prod.fst = names) (hdistinct : names.Nodup) :
    fields? names (.ofMembers members) = some (members.map fun member => some member.2) := by
  subst hnames
  exact objectFields?_encode hdistinct

/-- The fields of a record that may leave out fields are read as they are written. -/
theorem leadingFields?_ofMembers {names : List String} {members : List (String × Value)}
    (hnames : members.map Prod.fst = names) (hdistinct : names.Nodup) :
    leadingFields? names (.ofMembers members) = some (members.map fun member => some member.2) := by
  subst hnames
  exact objectFields?_encode hdistinct

/-- The name of a variant that nothing comes with is read as it is written. -/
theorem variant?_ofText (name : String) : variant? (.ofText name) = some (name, none) := by
  rw [Value.ofText, variant?, decode_encode, Option.map_some, String.ofList_toList]

/-- The name of a variant and what comes with it are read as they are written. -/
theorem variant?_ofMembers (name : String) (v : Value) :
    variant? (.ofMembers [(name, v)]) = some (name, some v) := by
  rw [Value.ofMembers, List.map_singleton, variant?, decode_encode, Option.map_some,
    String.ofList_toList]

/-- A literal of digits holds no escapes. -/
theorem plainChars?_encode {cs : List Char} (h : ∀ c ∈ cs, c.isDigit = true) :
    plainChars? (encode cs) = some cs := by
  induction cs with
  | nil => rfl
  | cons c cs ih =>
    have hplain : itemOf c = .plain c := by
      have hdigit := h c List.mem_cons_self
      refine if_neg ?_
      rintro (rfl | rfl | hcontrol)
      · cases hdigit
      · cases hdigit
      · have hleast : 48 ≤ c.toNat := by
          have hrange := hdigit
          rw [Char.isDigit, Bool.and_eq_true, decide_eq_true_eq] at hrange
          exact hrange.1
        omega
    rw [encode, List.map_cons, hplain, plainChars?, ← encode,
      ih fun d hd => h d (List.mem_cons_of_mem c hd)]
    rfl

/-- A key that is a number of 32 bits is read as it is written. -/
theorem naturalKey?_natural {n : Nat} (h : n < 2 ^ 32) :
    naturalKey? (encode (Numeral.natural n).toList) = some n := by
  have hdigits : ∀ c ∈ Nat.toDigits 10 n, c.isDigit = true := fun c => Numeral.isDigit_toDigits
  rw [Numeral.natural, String.toList_ofList, naturalKey?, plainChars?_encode hdigits,
    Option.bind_eq_bind, Option.bind_some, Numeral.natural?_toDigits, Option.bind_eq_bind,
    Option.bind_some]
  exact if_pos ⟨rfl, h⟩

/-- The map of the entries of a map with natural keys is the map. -/
theorem mapOf_toList (m : Std.ExtTreeMap Nat α) : mapOf m.toList = m := by
  rw [mapOf, ← Std.ExtTreeMap.ofList_eq_foldl, ofList_toList]

/-- The entries of a map with keys of 32 bits are read as they are written. -/
theorem naturalEntries?_ofNaturalEntries {entries : List (Nat × Value)}
    (h : ∀ entry ∈ entries, entry.1 < 2 ^ 32) :
    naturalEntries? (ofNaturalEntries entries) = some entries := by
  rw [ofNaturalEntries, Value.ofMembers, naturalEntries?, List.map_map]
  refine mapM_map_of_forall fun entry hentry => ?_
  rw [Function.comp_apply, naturalKey?_natural (h entry hentry)]
  rfl

/-- A map with keys of 32 bits is conveyed when its values are. -/
theorem conveys_naturalMap {write : α → Value} {m : Std.ExtTreeMap Nat α}
    (hkeys : ∀ k ∈ m, k < 2 ^ 32) (h : ∀ (k : Nat) a, m[k]? = some a → Conveys read (write a) a) :
    Conveys (naturalMap? read)
      (ofNaturalEntries (m.toList.map fun entry => (entry.1, write entry.2))) m where
  writable := by
    refine writable_ofMembers fun member hmember => ?_
    rw [List.map_map] at hmember
    obtain ⟨⟨k, a⟩, hentry, rfl⟩ := List.mem_map.mp hmember
    exact (h k a (Std.ExtTreeMap.mem_toList_iff_getElem?_eq_some.mp hentry)).writable
  read_eq := by
    have hentries : ∀ entry ∈ m.toList.map fun entry => (entry.1, write entry.2),
        entry.1 < 2 ^ 32 := by
      intro entry hentry
      obtain ⟨⟨k, a⟩, hmem, rfl⟩ := List.mem_map.mp hentry
      exact hkeys k (fst_mem_of_mem_toList hmem)
    have hvalues : (m.toList.map fun entry => (entry.1, write entry.2)).mapM
        (fun entry => (read entry.2).map fun a => (entry.1, a)) = some m.toList := by
      refine mapM_map_of_forall fun entry hentry => ?_
      rw [(h entry.1 entry.2 (Std.ExtTreeMap.mem_toList_iff_getElem?_eq_some.mp hentry)).read_eq]
      rfl
    rw [naturalMap?, naturalEntries?_ofNaturalEntries hentries, Option.bind_eq_bind,
      Option.bind_some, hvalues, Option.bind_eq_bind, Option.bind_some, mapOf_toList]
    rfl

end Json

end CellularAutomata
