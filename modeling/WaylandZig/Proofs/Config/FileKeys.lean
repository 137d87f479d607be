import WaylandZig.Config.File
import WaylandZig.Proofs.Fallible
import WaylandZig.Proofs.Toml.Assembly

/-! # Keys of a configuration file

A file that is accepted has only keys that name fields up to case, and a field whose key is absent has
its default. A key in the exact spelling sets its field, and one in another spelling sets nothing and
is not reported. The mappings have a second gap: what is no table is taken for no mappings. So the
configuration carries what the file says exactly if every key is spelled as its field and the mappings
are a table.
-/
namespace WaylandZig

open Toml

def Toml.Value.isTable : Value → Bool
  | .table _ => true
  | _ => false

/-- The fields that a configuration file can set. -/
inductive ConfigField where
  | outDir
  | roots
  | formatter
  | noFormat
  | onMismatch
  | skipInterfaces
  | typeMappings
  | typesUnit
  | indexUnit
  | eventsOnlyIndex
  | indentSize
  deriving DecidableEq, Repr

/-- What a field of a configuration holds. -/
inductive Setting where
  | text (s : Bytes)
  | texts (items? : Option (List Bytes))
  | flag (b : Bool)
  | integer (n : Int)
  | mappings (m : Zig.TypeMappings)
  deriving DecidableEq, Repr

namespace ConfigField

def all : List ConfigField :=
  [.outDir,.roots,.formatter,.noFormat,.onMismatch,.skipInterfaces,.typeMappings,.typesUnit,.indexUnit,
    .eventsOnlyIndex,.indentSize]

def key : ConfigField → Bytes
  | .outDir => "out_dir"
  | .roots => "roots"
  | .formatter => "formatter"
  | .noFormat => "no_format"
  | .onMismatch => "on_mismatch"
  | .skipInterfaces => "skip_interfaces"
  | .typeMappings => "type_mappings"
  | .typesUnit => "types_unit"
  | .indexUnit => "index_unit"
  | .eventsOnlyIndex => "events_only_index"
  | .indentSize => "indent_size"

def type : ConfigField → FieldType
  | .outDir | .onMismatch | .typesUnit | .indexUnit => .text
  | .roots | .formatter | .skipInterfaces => .texts
  | .noFormat | .eventsOnlyIndex => .flag
  | .indentSize => .integer
  | .typeMappings => .mappings

/-- A key names a field up to case. -/
def IsNamedBy (f : ConfigField) (k : Bytes) : Prop := CaseFold.isName f.key k = true

/-- What a value says about a field. Directories are seen from `base`, and words lose the blanks around
them. -/
inductive Reads (base : Bytes) : ConfigField → Value → Setting → Prop
  | outDir (s : Bytes) : Reads base .outDir (.text s) (.text (ConfigFile.resolve base s))
  | roots (items : List Bytes) : Reads base .roots (.array (items.map .text))
      (.texts (some (items.map (ConfigFile.resolve base))))
  | formatter (items : List Bytes) :
      Reads base .formatter (.array (items.map .text)) (.texts (some items))
  | noFormat (b : Bool) : Reads base .noFormat (.boolean b) (.flag b)
  | onMismatch (s : Bytes) : Reads base .onMismatch (.text s) (.text (Space.trim s))
  | skipInterfaces (items : List Bytes) :
      Reads base .skipInterfaces (.array (items.map .text)) (.texts (some items))
  | typeMappings (m : Zig.TypeMappings) :
      Reads base .typeMappings (.table (m.map fun e => (e.1,.text e.2))) (.mappings m)
  | typesUnit (s : Bytes) : Reads base .typesUnit (.text s) (.text (Space.trim s))
  | indexUnit (s : Bytes) : Reads base .indexUnit (.text s) (.text (Space.trim s))
  | eventsOnlyIndex (b : Bool) : Reads base .eventsOnlyIndex (.boolean b) (.flag b)
  | indentSize (n : Int) : Reads base .indentSize (.integer n) (.integer n)

theorem mem_all (f : ConfigField) : f ∈ all := by
  cases f <;> decide

theorem fields_eq : ConfigFile.fields = all.map fun f => (f.key,f.type) := rfl

theorem isNamedBy_key (f : ConfigField) : f.IsNamedBy f.key := by
  have hall : ∀ f ∈ all, CaseFold.isName f.key f.key = true := by decide +kernel
  exact hall f (mem_all f)

/-- A key names one field at most. -/
theorem IsNamedBy.unique {f g : ConfigField} {k : Bytes} (hf : f.IsNamedBy k) (hg : g.IsNamedBy k) :
    f = g := by
  have hkeys : ∀ f ∈ all, ∀ g ∈ all, f.key = g.key → f = g := by decide +kernel
  refine hkeys f (mem_all f) g (mem_all g) ?_
  rw [← beq_iff_eq.mp hf, ← beq_iff_eq.mp hg]

end ConfigField

/-- What a configuration holds in a field. -/
def Config.setting (c : Config) : ConfigField → Setting
  | .outDir => .text c.outDir
  | .roots => .texts (some c.roots)
  | .formatter => .texts c.formatter
  | .noFormat => .flag c.noFormat
  | .onMismatch => .text c.onMismatch
  | .skipInterfaces => .texts (some c.skipInterfaces)
  | .typeMappings => .mappings c.typeMappings
  | .typesUnit => .text c.typesUnit
  | .indexUnit => .text c.indexUnit
  | .eventsOnlyIndex => .flag c.eventsOnlyIndex
  | .indentSize => .integer c.indentSize

namespace ConfigFile

variable {base k : Bytes} {f : ConfigField} {v : Value} {root : Table} {d : Toml.Document}

theorem fieldType?_eq_some_iff {type : FieldType} :
    fieldType? k = some type ↔ ∃ f : ConfigField, f.IsNamedBy k ∧ f.type = type := by
  rw [fieldType?, ConfigField.fields_eq, List.find?_map, Option.map_map, Option.map_eq_some_iff]
  constructor
  · rintro ⟨f,hf,ht⟩
    have hn := List.find?_some hf
    exact ⟨f,hn,ht⟩
  · rintro ⟨f,hf,ht⟩
    cases hfind : ConfigField.all.find? fun f => CaseFold.isName f.key k with
    | some g =>
      have hg := List.find?_some hfind
      exact ⟨g,hfind,ConfigField.IsNamedBy.unique hg hf ▸ ht⟩
    | none => exact absurd hf (List.find?_eq_none.mp hfind f (ConfigField.mem_all f))

theorem isNamedBy_of_mem_knownKeys {e : Bytes × Value} {key : Key} (h : key ∈ knownKeys e) :
    key.head? = some e.1 ∧ ∃ f : ConfigField, f.IsNamedBy e.1 := by
  have hfield {type : FieldType} (ht : fieldType? e.1 = some type) :
      ∃ f : ConfigField, f.IsNamedBy e.1 := by
    obtain ⟨f,hf,-⟩ := fieldType?_eq_some_iff.mp ht
    exact ⟨f,hf⟩
  unfold knownKeys at h
  split at h
  · rename_i ht _
    refine ⟨?_,hfield ht⟩
    rcases List.mem_cons.mp h with rfl | h
    · rfl
    · obtain ⟨inner,-,rfl⟩ := List.mem_map.mp h
      rfl
  · rename_i ht _
    rw [List.mem_singleton.mp h]
    exact ⟨rfl,hfield ht⟩
  · cases h

/-- A declared key is unknown when its first part names no field. -/
theorem mem_unknownKeys {key : Key} (hd : key ∈ d.declared) (hk : key.head? = some k)
    (hn : ∀ f : ConfigField, ¬ f.IsNamedBy k) : key ∈ unknownKeys d := by
  refine List.mem_filter.mpr ⟨hd,?_⟩
  rw [Bool.not_eq_true', Bool.eq_false_iff, ne_eq, List.contains_iff_mem, List.mem_flatMap]
  rintro ⟨e,-,he⟩
  obtain ⟨hh,f,hf⟩ := isNamedBy_of_mem_knownKeys he
  rw [← Option.some.inj (hk.symm.trans hh)] at hf
  exact hn f hf

/-- Without unknown keys every top-level key names a field. -/
theorem exists_isNamedBy (hc : ∀ k ∈ d.root.keys, ∃ key ∈ d.declared, key.head? = some k)
    (hu : unknownKeys d = []) (hk : k ∈ d.root.keys) : ∃ f : ConfigField, f.IsNamedBy k := by
  obtain ⟨key,hd,hh⟩ := hc k hk
  by_contra hn
  have hm := mem_unknownKeys hd hh (not_exists.mp hn)
  rw [hu] at hm
  cases hm

section Values

theorem exists_text (h : FieldType.isText v = true) : ∃ s, v = .text s := by
  cases v with
  | text s => exact ⟨s,rfl⟩
  | _ => cases h

theorem exists_table (h : v.isTable = true) : ∃ entries, v = .table entries := by
  cases v with
  | table entries => exact ⟨entries,rfl⟩
  | _ => cases h

theorem exists_texts (h : FieldType.texts.accepts v = true) :
    ∃ items : List Bytes, v = .array (items.map .text) := by
  cases v with
  | array values =>
    have htext (v : Value) (hv : v ∈ values) : Value.text (textOf v) = v := by
      obtain ⟨s,rfl⟩ := exists_text (List.all_eq_true.mp h v hv)
      rfl
    refine ⟨values.map textOf,congrArg Value.array ?_⟩
    rw [List.map_map]
    exact ((List.map_congr_left htext).trans (List.map_id values)).symm
  | _ => cases h

theorem exists_mappings {entries : Table} (h : FieldType.mappings.accepts (.table entries) = true) :
    ∃ m : Zig.TypeMappings, entries = m.map fun e => (e.1,.text e.2) := by
  have htext (e : Bytes × Value) (he : e ∈ entries) : (e.1,Value.text (textOf e.2)) = e := by
    obtain ⟨s,hs⟩ := exists_text (List.all_eq_true.mp h e he)
    rw [hs, textOf, ← hs]
  refine ⟨entries.map fun e => (e.1,textOf e.2),?_⟩
  rw [List.map_map]
  exact ((List.map_congr_left htext).trans (List.map_id entries)).symm

theorem exists_flag (h : FieldType.flag.accepts v = true) : ∃ b, v = .boolean b := by
  cases v with
  | boolean b => exact ⟨b,rfl⟩
  | _ => cases h

theorem exists_integer (h : FieldType.integer.accepts v = true) : ∃ n, v = .integer n := by
  cases v with
  | integer n => exact ⟨n,rfl⟩
  | _ => cases h

theorem textsOf_texts (items : List Bytes) : textsOf (.array (items.map .text)) = items := by
  rw [textsOf, List.map_map]
  exact List.map_id items

end Values

section Mappings

variable {m : Zig.TypeMappings} {entries : Table}

theorem mapType_of_notMem {kind type : Bytes} (h : kind ∉ m.map Prod.fst) :
    Config.mapType kind type m = m ++ [(kind,type)] := by
  induction m with
  | nil => rfl
  | cons first m ih =>
    obtain ⟨k,old⟩ := first
    simp only [List.map_cons, List.mem_cons, not_or] at h
    rw [Config.mapType, if_neg (Ne.symm h.1), ih h.2, List.cons_append]

/-- Mappings of different kinds are taken as they stand. -/
theorem foldl_mapType (h : (m.map Prod.fst ++ entries.keys).Nodup) :
    entries.foldl (fun found e => Config.mapType e.1 (textOf e.2) found) m =
      m ++ entries.map fun e => (e.1,textOf e.2) := by
  induction entries generalizing m with
  | nil => rw [List.foldl_nil, List.map_nil, List.append_nil]
  | cons e entries ih =>
    have hk : e.1 ∉ m.map Prod.fst := by
      intro hm
      exact (List.nodup_append.mp h).2.2 _ hm _ List.mem_cons_self rfl
    rw [List.foldl_cons, mapType_of_notMem hk, ih]
    · rw [List.map_cons, List.append_assoc, List.singleton_append]
    · rw [List.map_append, List.append_assoc]
      exact h

/-- The mappings that stand under one key of the file. -/
def mappingEntries (e : Bytes × Value) : Table :=
  match e.2 with
  | .table entries => if CaseFold.isName "type_mappings" e.1 then entries else []
  | _ => []

theorem mappingsOf_eq_foldl (root : Table) : mappingsOf root =
    (root.flatMap mappingEntries).foldl (fun found e => Config.mapType e.1 (textOf e.2) found) [] := rfl

theorem flatMap_mappingEntries_eq_nil (h : ∀ k ∈ root.keys, ¬ ConfigField.typeMappings.IsNamedBy k) :
    root.flatMap mappingEntries = [] := by
  rw [List.flatMap_eq_nil_iff]
  intro e he
  unfold mappingEntries
  split
  · exact if_neg (h e.1 (List.mem_map_of_mem he))
  · rfl

/-- Where one key names the mappings, they are the entries of its table. -/
theorem mappingsOf_eq (hd : root.Distinct) (hm : (ConfigField.typeMappings.key,.table entries) ∈ root)
    (hs : ∀ k ∈ root.keys, ConfigField.typeMappings.IsNamedBy k → k = ConfigField.typeMappings.key) :
    mappingsOf root = entries.map fun e => (e.1,textOf e.2) := by
  have hentries : entries.Distinct := hd.value hm
  obtain ⟨before,after,rfl⟩ := List.append_of_mem hm
  have hkeys := hd.keys_nodup
  rw [Table.keys, List.map_append, List.map_cons, List.nodup_append, List.nodup_cons] at hkeys
  obtain ⟨-,⟨hafter,-⟩,hbefore⟩ := hkeys
  -- Another key of the mappings would be the exact one, which stands in the file once.
  have hnone {k : Bytes} (hk : k ∈ Table.keys before ∨ k ∈ Table.keys after) :
      ¬ ConfigField.typeMappings.IsNamedBy k := by
    intro hn
    have hk' : k ∈ Table.keys (before ++ (ConfigField.typeMappings.key,.table entries) :: after) := by
      rw [Table.keys, List.map_append, List.map_cons]
      exact List.mem_append.mpr (hk.imp_right (List.mem_cons_of_mem _))
    rw [hs k hk' hn] at hk
    rcases hk with hk | hk
    · exact hbefore _ hk _ List.mem_cons_self rfl
    · exact hafter hk
  have hname : CaseFold.isName "type_mappings" ConfigField.typeMappings.key = true :=
    ConfigField.isNamedBy_key .typeMappings
  have hhere : mappingEntries (ConfigField.typeMappings.key,.table entries) = entries := by
    rw [mappingEntries]
    exact if_pos hname
  rw [mappingsOf_eq_foldl, List.flatMap_append, List.flatMap_cons, hhere,
    flatMap_mappingEntries_eq_nil fun _ hk => hnone (.inl hk),
    flatMap_mappingEntries_eq_nil fun _ hk => hnone (.inr hk), List.nil_append, List.append_nil]
  exact foldl_mapType hentries.keys_nodup

end Mappings

/-- A field whose key is absent has its default. -/
theorem setting_overlay_of_notMem (h : f.key ∉ root.keys) :
    (overlay base root).setting f = ({} : Config).setting f := by
  rw [← Table.lookup_eq_none_iff] at h
  cases f <;> simp only [ConfigField.key] at h <;> simp only [Config.setting, overlay, h]

/-- A key in the exact spelling sets its field if no other spelling of it stands beside it. -/
theorem reads_overlay (hd : root.Distinct) (hm : (f.key,v) ∈ root) (ha : f.type.accepts v = true)
    (hs : ∀ k ∈ root.keys, f.IsNamedBy k → k = f.key)
    (ht : f = .typeMappings → v.isTable = true) :
    f.Reads base v ((overlay base root).setting f) := by
  have hl := hd.lookup_eq_some_iff.mpr hm
  cases f <;> simp only [ConfigField.key] at hl <;> simp only [Config.setting, overlay, hl]
  case outDir =>
    obtain ⟨s,rfl⟩ := exists_text ha
    exact .outDir s
  case onMismatch =>
    obtain ⟨s,rfl⟩ := exists_text ha
    exact .onMismatch s
  case typesUnit =>
    obtain ⟨s,rfl⟩ := exists_text ha
    exact .typesUnit s
  case indexUnit =>
    obtain ⟨s,rfl⟩ := exists_text ha
    exact .indexUnit s
  case roots =>
    obtain ⟨items,rfl⟩ := exists_texts ha
    rw [textsOf_texts]
    exact .roots items
  case formatter =>
    obtain ⟨items,rfl⟩ := exists_texts ha
    rw [textsOf_texts]
    exact .formatter items
  case skipInterfaces =>
    obtain ⟨items,rfl⟩ := exists_texts ha
    rw [textsOf_texts]
    exact .skipInterfaces items
  case noFormat =>
    obtain ⟨b,rfl⟩ := exists_flag ha
    exact .noFormat b
  case eventsOnlyIndex =>
    obtain ⟨b,rfl⟩ := exists_flag ha
    exact .eventsOnlyIndex b
  case indentSize =>
    obtain ⟨n,rfl⟩ := exists_integer ha
    exact .indentSize n
  case typeMappings =>
    obtain ⟨entries,rfl⟩ := exists_table (ht rfl)
    obtain ⟨m,rfl⟩ := exists_mappings ha
    rw [mappingsOf_eq hd hm hs, List.map_map]
    have hid : (m.map fun e => (e.1,textOf (.text e.2))) = m := List.map_id m
    exact hid.symm ▸ .typeMappings m

/-- A file at a path that is a document. -/
def Holds (t : FileTree) (path : Bytes) (d : Toml.Document) : Prop :=
  ∃ content, t.readFile path = .ok content ∧ Toml.Document.read? content = some d

/-- The keys of a document and what a configuration has in the fields that they name. -/
structure Overlays (base : Bytes) (root : Table) (c : Config) : Prop where
  known : ∀ k ∈ root.keys, ∃ f : ConfigField, f.IsNamedBy k
  kept : ∀ f : ConfigField, f.key ∉ root.keys → c.setting f = ({} : Config).setting f
  carried : ∀ (f : ConfigField) (v : Value), (f.key,v) ∈ root →
    (∀ k ∈ root.keys, f.IsNamedBy k → k = f.key) →
    (f = .typeMappings → v.isTable = true) → f.Reads base v (c.setting f)

/-- Every key of the file is the name of a field, and the configuration carries its value. -/
def Carries (base : Bytes) (root : Table) (c : Config) : Prop :=
  ∀ k v, (k,v) ∈ root → ∃ f : ConfigField, k = f.key ∧ f.Reads base v (c.setting f)

/-- Every key is spelled as its field, and the mappings are a table. -/
def Exact (root : Table) : Prop :=
  ∀ e ∈ root, ∃ f ∈ ConfigField.all, e.1 = f.key ∧ (f = .typeMappings → e.2.isTable = true)

instance (root : Table) : Decidable (Exact root) := inferInstanceAs (Decidable (∀ e ∈ root, _))

theorem Overlays.carries_iff {c : Config} (h : Overlays base root c) :
    Carries base root c ↔ Exact root := by
  constructor
  · rintro hc ⟨k,v⟩ hm
    obtain ⟨f,rfl,hr⟩ := hc k v hm
    refine ⟨f,f.mem_all,rfl,?_⟩
    rintro rfl
    cases hr
    rfl
  · rintro he k v hm
    obtain ⟨f,-,rfl,htable⟩ := he _ hm
    refine ⟨f,rfl,h.carried f v hm ?_ htable⟩
    -- A key in another spelling of `f` is spelled as a field too, and that field can only be `f`.
    intro k hk hn
    obtain ⟨e,hme,rfl⟩ := List.mem_map.mp hk
    obtain ⟨g,-,hg,-⟩ := he e hme
    rw [hg] at hn ⊢
    rw [hn.unique g.isNamedBy_key]

theorem read_eq_ok {path content : Bytes} {c : Config} (h : read path content = .ok c) :
    ∃ d, Toml.Document.read? content = some d ∧ d.root.all hasFieldType = true ∧ unknownKeys d = [] ∧
      c = overlay (Path.dir path) d.root := by
  unfold read at h
  split at h
  · cases h
  rename_i d hd
  split at h
  · cases h
  rename_i ht
  split at h
  · rename_i hu
    cases h
    exact ⟨d,hd,by simpa using ht,List.isEmpty_iff.mp hu,rfl⟩
  · cases h

theorem read_eq_unknownKeys {path content : Bytes} (hd : Toml.Document.read? content = some d)
    (ht : d.root.all hasFieldType = true) (hu : unknownKeys d ≠ []) :
    read path content = .error (.unknownKeys path (unknownKeys d)) := by
  have hne : (unknownKeys d).isEmpty = false := by simpa using hu
  simp only [read, hd, ht, hne, Bool.not_true, Bool.false_eq_true, if_false]

theorem accepts_of_hasFieldType (h : root.all hasFieldType = true) (hm : (f.key,v) ∈ root) :
    f.type.accepts v = true := by
  have hv := List.all_eq_true.mp h _ hm
  have hf : fieldType? f.key = some f.type :=
    fieldType?_eq_some_iff.mpr ⟨f,ConfigField.isNamedBy_key f,rfl⟩
  simpa only [hasFieldType, hf] using hv

theorem overlays_overlay (hd : d.root.Distinct)
    (hc : ∀ k ∈ d.root.keys, ∃ key ∈ d.declared, key.head? = some k)
    (ht : d.root.all hasFieldType = true) (hu : unknownKeys d = []) :
    Overlays base d.root (overlay base d.root) :=
  { known := fun _ hk => exists_isNamedBy hc hu hk
    kept := fun _ hf => setting_overlay_of_notMem hf
    carried := fun _ _ hm hs htable => reads_overlay hd hm (accepts_of_hasFieldType ht hm) hs htable }

theorem load_eq_ok {t : FileTree} {path : Bytes} {c : Config} (h : load t path = .ok c) :
    ∃ d, Holds t path d ∧ Overlays (Path.dir path) d.root c := by
  unfold load at h
  split at h
  · cases h
  rename_i content hread
  obtain ⟨d,hd,ht,hu,rfl⟩ := read_eq_ok h
  obtain ⟨hc,hdistinct⟩ := Toml.Document.covered_of_read? hd
  exact ⟨d,⟨content,hread,hd⟩,overlays_overlay hdistinct hc ht hu⟩

/-- A file whose values fit its fields is refused for a top-level key that names no field. -/
theorem load_eq_unknownKeys {t : FileTree} {path : Bytes} (h : Holds t path d)
    (ht : d.root.all hasFieldType = true) (hk : k ∈ d.root.keys)
    (hn : ∀ f : ConfigField, ¬ f.IsNamedBy k) : ∃ unknown,
      load t path = .error (.unknownKeys path unknown) ∧ ∃ key ∈ unknown, key.head? = some k := by
  obtain ⟨content,hread,hd⟩ := h
  obtain ⟨hc,-⟩ := Toml.Document.covered_of_read? hd
  obtain ⟨key,hm,hh⟩ := hc k hk
  have hunknown := mem_unknownKeys hm hh hn
  refine ⟨unknownKeys d,?_,key,hunknown,hh⟩
  rw [load, hread]
  exact read_eq_unknownKeys hd ht (List.ne_nil_of_mem hunknown)

/-- What a configuration file says and what is made of it. In a file that is accepted every key names a
field up to case, a field whose key is absent has its default, and a key in the exact spelling sets
its field when it is its only spelling; the configuration carries every key exactly if all are spelled
as their fields and the mappings are a table. A key that names no field is refused as unknown. -/
theorem load_carries_iff (t : FileTree) (path : Bytes) :
    (∀ c, load t path = .ok c → ∃ d, Holds t path d ∧ Overlays (Path.dir path) d.root c ∧
      (Carries (Path.dir path) d.root c ↔ Exact d.root)) ∧
    ∀ d, Holds t path d → d.root.all hasFieldType = true → ∀ k ∈ d.root.keys,
      (∀ f : ConfigField, ¬ f.IsNamedBy k) → ∃ unknown,
        load t path = .error (.unknownKeys path unknown) ∧ ∃ key ∈ unknown, key.head? = some k := by
  refine ⟨fun c h => ?_,fun d hd ht k hk hn => load_eq_unknownKeys hd ht hk hn⟩
  obtain ⟨d,hd,ho⟩ := load_eq_ok h
  exact ⟨d,hd,ho,ho.carries_iff⟩

def plainText : Bytes :=
  "out_dir = ' gen '\ntype_mappings.fixed = 'types.Fixed'\nindent_size = 2"

/-- Keys that are spelled as their fields, and in a second file one that names no field. -/
def plainFiles : FileTree :=
  { nodes := [(["conf"],.directory),(["conf","a.toml"],.file 0o644 plainText),
      (["conf","b.toml"],.file 0o644 "colour = 1")] }

def plainConfig : Config :=
  { outDir := "conf/gen", typeMappings := [("fixed","types.Fixed")], indentSize := 2 }

theorem plainFiles_carries :
    (∃ d, load plainFiles "conf/a.toml" = .ok plainConfig ∧ Holds plainFiles "conf/a.toml" d ∧
      Carries (Path.dir "conf/a.toml") d.root plainConfig) ∧
    ∃ unknown, load plainFiles "conf/b.toml" = .error (.unknownKeys "conf/b.toml" unknown) ∧
      ∃ key ∈ unknown, key.head? = some (Bytes.ofString "colour") := by
  constructor
  · have hload : load plainFiles "conf/a.toml" = .ok plainConfig := by decide +kernel
    obtain ⟨d,hd,-,hiff⟩ := (load_carries_iff plainFiles "conf/a.toml").1 _ hload
    have hexact : (Toml.Document.read? plainText).all (fun d => decide (Exact d.root)) = true := by
      decide +kernel
    have hfile : plainFiles.readFile "conf/a.toml" = .ok plainText := by decide +kernel
    obtain ⟨content,hread,hdoc⟩ := hd
    obtain rfl := Except.ok.inj (hfile.symm.trans hread)
    rw [hdoc, Option.all_some, decide_eq_true_iff] at hexact
    exact ⟨d,hload,⟨_,hread,hdoc⟩,hiff.mpr hexact⟩
  · have hkeys : ((Toml.Document.read? "colour = 1").map fun d =>
        (d.root.all hasFieldType,d.root.keys)) = some (true,[Bytes.ofString "colour"]) := by
      decide +kernel
    obtain ⟨d,hd,hk⟩ := Option.map_eq_some_iff.mp hkeys
    obtain ⟨htypes,hkeys⟩ := Prod.mk.inj hk
    have hfile : plainFiles.readFile "conf/b.toml" = .ok "colour = 1" := by decide +kernel
    refine (load_carries_iff plainFiles "conf/b.toml").2 d ⟨_,hfile,hd⟩ htypes "colour" ?_ ?_
    · rw [hkeys]
      exact List.mem_singleton_self _
    · have hnone : ∀ f ∈ ConfigField.all, ¬ CaseFold.isName f.key "colour" = true := by decide +kernel
      exact fun f => hnone f f.mem_all

/-- A file with a key in capitals. -/
def loudFile : FileTree := { nodes := [(["c.toml"],.file 0o644 "OUT_DIR = 'x'")] }

/-- A key in another spelling is accepted and sets nothing. -/
theorem loudFile_not_carries : ∃ d, Holds loudFile "c.toml" d ∧
    load loudFile "c.toml" = .ok {} ∧ ¬ Carries (Path.dir "c.toml") d.root {} := by
  have hkeys : (Toml.Document.read? "OUT_DIR = 'x'").map (·.root.keys) =
      some [Bytes.ofString "OUT_DIR"] := by
    decide +kernel
  obtain ⟨d,hd,hk⟩ := Option.map_eq_some_iff.mp hkeys
  refine ⟨d,⟨"OUT_DIR = 'x'",by decide +kernel,hd⟩,by decide +kernel,?_⟩
  intro hc
  have hloud : ∀ f ∈ ConfigField.all, Bytes.ofString "OUT_DIR" ≠ f.key := by decide +kernel
  have hm : Bytes.ofString "OUT_DIR" ∈ d.root.keys := by
    rw [hk]
    exact List.mem_singleton_self _
  obtain ⟨⟨k,v⟩,hm,he⟩ := List.mem_map.mp hm
  obtain ⟨f,hf,-⟩ := hc k v hm
  exact hloud f (ConfigField.mem_all f) (he.symm.trans hf)

end ConfigFile

end WaylandZig
