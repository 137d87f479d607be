import WaylandZig.Proofs.Toml.Table

/-! # What a text declares

Each statement of a text works below one top-level key, so that an assembly grows by that key at most,
and the statement declares a key that starts with it. Every top-level key of a document is therefore
the first part of a key that the text declares, and no table of the document has two entries of one
key.
-/
namespace WaylandZig.Toml

namespace Assembly

/-- One assembly comes from another by work below one top-level key. -/
structure Grows (head : Option Bytes) (a b : Assembly) : Prop where
  keys : ∀ k ∈ b.root.keys, k ∈ a.root.keys ∨ head = some k
  declared : ∀ key ∈ a.declared, key ∈ b.declared
  distinct : a.root.Distinct → b.root.Distinct

variable {head : Option Bytes} {a b c : Assembly} {context here key : Key} {name : Bytes} {v : Value}

theorem Grows.refl (head : Option Bytes) (a : Assembly) : Grows head a a :=
  ⟨fun _ => .inl,fun _ => id,id⟩

theorem Grows.trans (hab : Grows head a b) (hbc : Grows head b c) : Grows head a c := by
  refine ⟨fun k hk => ?_,fun key hk => hbc.declared key (hab.declared key hk),
    fun h => hbc.distinct (hab.distinct h)⟩
  rcases hbc.keys k hk with hk | hk
  · exact hab.keys k hk
  · exact .inr hk

theorem Grows.of_eq (hr : b.root = a.root) (hd : b.declared = a.declared) : Grows head a b :=
  ⟨fun _ hk => .inl (hr ▸ hk),fun _ hk => hd ▸ hk,fun h => hr ▸ h⟩

theorem grows_addImplicit (a : Assembly) (key : Key) : Grows head a (a.addImplicit key) :=
  .of_eq rfl rfl

theorem grows_markArray (a : Assembly) (key : Key) : Grows head a (a.markArray key) := .of_eq rfl rfl

theorem grows_markOther (a : Assembly) (key : Key) : Grows head a (a.markOther key) := .of_eq rfl rfl

theorem grows_mark (a : Assembly) (key : Key) (v : Value) : Grows head a (a.mark key v) := by
  cases v with
  | array _ => exact grows_markArray a key
  | _ => exact grows_markOther a key

theorem grows_declare (a : Assembly) (key : Key) : Grows head a (a.declare key) :=
  ⟨fun _ => .inl,fun _ hk => List.mem_append_left _ hk,id⟩

theorem mem_declared_declare (a : Assembly) (key : Key) : key ∈ (a.declare key).declared :=
  List.mem_append_right _ (List.mem_singleton_self key)

theorem grows_store (hv : a.root.Distinct → v.Distinct) (h : a.store context name v = some b) :
    Grows (context ++ [name]).head? a b := by
  obtain ⟨root,hroot,rfl⟩ := Option.map_eq_some_iff.mp h
  refine ⟨fun k hk => ?_,fun _ => id,fun hd => ?_⟩
  · cases context with
    | nil =>
      cases hroot
      exact (Table.mem_keys_put hk).symm.imp_right fun he => congrArg some he.symm
    | cons first rest => exact .inl (Table.mem_keys_change hroot hk)
  · exact hd.change (fun _ ht => ht.put (hv hd)) hroot

theorem grows_set (hv : v.Distinct) (h : a.set context name v = some b) :
    Grows (context ++ [name]).head? a b := by
  obtain ⟨found,-,h⟩ := Option.bind_eq_some_iff.mp h
  split at h
  · exact grows_store (fun _ => hv) h
  split at h
  · -- A key that was made on the way to another keeps what it has, unless an array is laid over it.
    dsimp only at h
    split at h
    · have hstore := grows_store (fun _ => hv) h
      exact ⟨hstore.keys,hstore.declared,hstore.distinct⟩
    · cases h
      exact .of_eq rfl rfl
  · cases h

theorem head?_append_append (context : Key) (name : Bytes) (rest : Key) :
    (context ++ [name] ++ rest).head? = (context ++ [name]).head? := by
  cases context <;> rfl

theorem grows_makeParents {rest : Key} (h : a.makeParents context rest = some b)
    (hh : rest ≠ [] → (context ++ rest).head? = head) : Grows head a b := by
  induction rest generalizing context a with
  | nil =>
    cases h
    exact .refl head _
  | cons name rest ih =>
    have hhere : (context ++ [name]).head? = head := by
      rw [← hh (List.cons_ne_nil _ _), ← head?_append_append context name rest, List.append_assoc]
      rfl
    have hrest : rest ≠ [] → (context ++ [name] ++ rest).head? = head := by
      intro _
      rw [head?_append_append, hhere]
    simp only [makeParents] at h
    obtain ⟨found,-,h⟩ := Option.bind_eq_some_iff.mp h
    split at h
    · exact ih h hrest
    · obtain ⟨next,hs,h⟩ := Option.bind_eq_some_iff.mp h
      have hstep : Grows head (a.addImplicit (context ++ [name])) next :=
        hhere ▸ grows_store (fun _ => Table.distinct_nil) hs
      exact ((grows_addImplicit a _).trans hstep).trans (ih h hrest)

theorem grows_appendTable (h : a.appendTable context name = some b) :
    Grows (context ++ [name]).head? a b := by
  obtain ⟨found,hat,h⟩ := Option.bind_eq_some_iff.mp h
  split at h
  · refine grows_store (fun _ => .tables fun t ht => ?_) h
    rw [List.mem_singleton.mp ht]
    exact Table.distinct_nil
  · rename_i items hl
    refine grows_store (fun hd => .tables fun t ht => ?_) h
    rcases List.mem_append.mp ht with ht | ht
    · exact (hd.at? hat).item hl t ht
    · rw [List.mem_singleton.mp ht]
      exact Table.distinct_nil
  · cases h

/-- Opening a table works below the first part of its key. -/
theorem grows_enter {inArray : Bool} (hne : key ≠ []) (h : a.enter key inArray = some b) :
    Grows key.head? a b := by
  obtain ⟨parents,hp,h⟩ := Option.bind_eq_some_iff.mp h
  have hkey : key.dropLast ++ [key.getLast?.getD []] = key := by
    rw [List.getLast?_eq_some_getLast hne]
    exact List.dropLast_append_getLast hne
  have hparents : Grows key.head? a parents := by
    refine grows_makeParents hp fun hd => ?_
    rw [List.nil_append, ← List.dropLast_append_getLast hne, List.head?_append_of_ne_nil _ hd]
    simp
  refine hparents.trans ?_
  split at h
  · exact congrArg List.head? hkey ▸ grows_appendTable h
  · exact congrArg List.head? hkey ▸ grows_set Table.distinct_nil h

theorem grows_enterParts {parts : Key} (h : a.enterParts context parts = some b)
    (hh : parts ≠ [] → (context ++ parts).head? = head) : Grows head a b := by
  induction parts generalizing context a with
  | nil =>
    cases h
    exact .refl head _
  | cons part rest ih =>
    have hhere : (context ++ [part]).head? = head := by
      rw [← hh (List.cons_ne_nil _ _), ← head?_append_append context part rest, List.append_assoc]
      rfl
    simp only [enterParts] at h
    obtain ⟨next,he,h⟩ := Option.bind_eq_some_iff.mp h
    have hstep := hhere ▸ grows_enter (List.append_ne_nil_of_right_ne_nil _ (List.cons_ne_nil _ _)) he
    refine ((grows_addImplicit a _).trans hstep).trans (ih h fun _ => ?_)
    rw [head?_append_append, hhere]

/-- The key that an entry of a table in braces declares. -/
def entryKey (context key : Key) : Key := context ++ key.dropLast ++ [key.getLast?.getD []]

mutual

theorem grows_evaluate (literal : Literal) {inArray : Bool} {context : Key} {name : Bytes}
    {a b : Assembly} {v : Value}
    (h : evaluate inArray context name literal a = some (v,b)) :
    Grows (context ++ [name]).head? a b ∧ v.Distinct := by
  match literal with
  | .text s =>
    cases h
    exact ⟨.refl _ _,.text s⟩
  | .integer n =>
    cases h
    exact ⟨.refl _ _,.integer n⟩
  | .boolean b =>
    cases h
    exact ⟨.refl _ _,.boolean b⟩
  | .float _ =>
    cases h
    exact ⟨.refl _ _,.other⟩
  | .dateTime _ =>
    cases h
    exact ⟨.refl _ _,.other⟩
  | .array items =>
    simp only [evaluate] at h
    obtain ⟨⟨vs,last⟩,hi,he⟩ := Option.map_eq_some_iff.mp h
    cases he
    obtain ⟨hg,hd⟩ := grows_evaluateItems items hi
    exact ⟨(grows_markArray _ _).trans hg,.array hd⟩
  | .table entries =>
    simp only [evaluate] at h
    obtain ⟨opened,ho,h⟩ := Option.bind_eq_some_iff.mp h
    obtain ⟨⟨t,last⟩,he,h⟩ := Option.map_eq_some_iff.mp h
    cases h
    have hopen := grows_enter (List.append_ne_nil_of_right_ne_nil _ (List.cons_ne_nil _ _)) ho
    have hkeys (e : Key × Literal) (_ : e ∈ entries) :
        (entryKey (context ++ [name]) e.1).head? = (context ++ [name]).head? := by
      rw [entryKey, List.append_assoc, head?_append_append]
    obtain ⟨hg,hd,-⟩ := grows_evaluateEntries entries hkeys Table.distinct_nil he
    exact ⟨((grows_addImplicit a _).trans hopen).trans hg,hd⟩

theorem grows_evaluateItems (items : List Literal) {context : Key} {name : Bytes}
    {a b : Assembly} {vs : List Value}
    (h : evaluateItems context name items a = some (vs,b)) :
    Grows (context ++ [name]).head? a b ∧ ∀ v ∈ vs, v.Distinct := by
  match items with
  | [] =>
    cases h
    exact ⟨.refl _ _,nofun⟩
  | item :: rest =>
    simp only [evaluateItems] at h
    obtain ⟨⟨v,next⟩,hv,h⟩ := Option.bind_eq_some_iff.mp h
    obtain ⟨⟨vs,last⟩,hr,h⟩ := Option.map_eq_some_iff.mp h
    cases h
    obtain ⟨hg,hd⟩ := grows_evaluate item hv
    obtain ⟨hgs,hds⟩ := grows_evaluateItems rest hr
    exact ⟨hg.trans hgs,List.forall_mem_cons.mpr ⟨hd,hds⟩⟩

theorem grows_evaluateEntries (entries : List (Key × Literal)) {head : Option Bytes} {context : Key}
    {a b : Assembly} {done t : Table} (hh : ∀ e ∈ entries, (entryKey context e.1).head? = head)
    (hd : done.Distinct) (h : evaluateEntries context entries done a = some (t,b)) :
    Grows head a b ∧ t.Distinct ∧ ∀ e ∈ entries, entryKey context e.1 ∈ b.declared := by
  match entries with
  | [] =>
    cases h
    exact ⟨.refl _ _,hd,nofun⟩
  | (key,literal) :: rest =>
    simp only [evaluateEntries] at h
    obtain ⟨hkey,hrest⟩ := List.forall_mem_cons.mp hh
    obtain ⟨opened,ho,h⟩ := Option.bind_eq_some_iff.mp h
    obtain ⟨⟨v,valued⟩,hv,h⟩ := Option.bind_eq_some_iff.mp h
    obtain ⟨kept,hs,h⟩ := Option.bind_eq_some_iff.mp h
    obtain ⟨done',hp,h⟩ := Option.bind_eq_some_iff.mp h
    have hopen : Grows head a opened := by
      refine grows_enterParts ho fun hne => ?_
      rw [← hkey, entryKey, List.head?_append_of_ne_nil _ (List.append_ne_nil_of_right_ne_nil _ hne)]
    obtain ⟨hvalue,hdistinct⟩ := grows_evaluate literal hv
    have hset := grows_set hdistinct hs
    rw [← entryKey, hkey] at hvalue hset
    obtain ⟨hg,ht,hkeys⟩ := grows_evaluateEntries rest hrest (hd.putBelow hdistinct hp) h
    -- The key is declared before its value is read, and what follows only adds to the declared keys.
    have hlater := (hset.trans (grows_mark kept _ v)).trans hg
    have hdeclared := hvalue.trans hlater
    refine ⟨(hopen.trans (grows_declare opened _)).trans hdeclared,ht,?_⟩
    exact List.forall_mem_cons.mpr
      ⟨hdeclared.declared _ (mem_declared_declare opened (entryKey context key)),hkeys⟩

end

/-- Every top-level key is the first part of a declared key. -/
def Covered (a : Assembly) : Prop := ∀ k ∈ a.root.keys, ∃ key ∈ a.declared, key.head? = some k

theorem Grows.covered (hg : Grows key.head? a b) (hk : key ∈ b.declared) (h : a.Covered) :
    b.Covered := by
  intro k hm
  rcases hg.keys k hm with hm | hm
  · obtain ⟨other,ho,he⟩ := h k hm
    exact ⟨other,hg.declared other ho,he⟩
  · exact ⟨key,hk,hm⟩

theorem grows_header {inArray : Bool} (hne : key ≠ []) (h : a.enter key inArray = some b) :
    Grows key.head? a { (b.markOther key).declare key with current := key } := by
  have hdeclare := ((grows_enter hne h).trans (grows_markOther b key)).trans (grows_declare _ key)
  exact ⟨hdeclare.keys,hdeclare.declared,hdeclare.distinct⟩

end Assembly

/-- A header names a table. -/
def Statement.HasKey : Statement → Prop
  | .table key => key ≠ []
  | .tableArray key => key ≠ []
  | .assign _ _ => True

namespace Assembly

variable {a b : Assembly}

/-- A statement grows an assembly by a key that it declares. -/
theorem exists_grows_add {s : Statement} (hs : s.HasKey) (h : a.add s = some b) :
    ∃ key ∈ b.declared, Grows key.head? a b := by
  cases s with
  | table key =>
    obtain ⟨opened,ho,rfl⟩ := Option.map_eq_some_iff.mp h
    exact ⟨key,mem_declared_declare _ key,grows_header hs ho⟩
  | tableArray key =>
    obtain ⟨opened,ho,rfl⟩ := Option.map_eq_some_iff.mp h
    exact ⟨key,mem_declared_declare _ key,grows_header hs ho⟩
  | assign key literal =>
    obtain ⟨⟨t,last⟩,he,rfl⟩ := Option.map_eq_some_iff.mp h
    have hkey : ∀ e ∈ [(key,literal)],
        (entryKey a.current e.1).head? = (entryKey a.current key).head? := by
      simp
    obtain ⟨hg,-,hdeclared⟩ := grows_evaluateEntries _ hkey Table.distinct_nil he
    exact ⟨_,hdeclared _ List.mem_cons_self,hg⟩

theorem covered_foldlM {ss : List Statement} (hs : ∀ s ∈ ss, s.HasKey) (hc : a.Covered)
    (hd : a.root.Distinct) (h : ss.foldlM add a = some b) : b.Covered ∧ b.root.Distinct := by
  induction ss generalizing a with
  | nil =>
    cases h
    exact ⟨hc,hd⟩
  | cons s rest ih =>
    obtain ⟨hfirst,hrest⟩ := List.forall_mem_cons.mp hs
    rw [List.foldlM_cons] at h
    obtain ⟨next,hn,h⟩ := Option.bind_eq_some_iff.mp h
    obtain ⟨key,hk,hg⟩ := exists_grows_add hfirst hn
    exact ih hrest (hg.covered hk hc) (hg.distinct hd) h

end Assembly

section Statements

variable {s rest : Bytes} {key : Key} {found : Statement}

theorem key?_ne_nil (h : key? s = some (key,rest)) : key ≠ [] := by
  simp only [key?, keyFrom] at h
  obtain ⟨⟨part,after⟩,-,h⟩ := Option.bind_eq_some_iff.mp h
  split at h
  · obtain ⟨⟨parts,after⟩,-,h⟩ := Option.map_eq_some_iff.mp h
    cases h
    exact List.cons_ne_nil _ _
  · cases h
    exact List.cons_ne_nil _ _

theorem hasKey_of_statement? (h : statement? s = some (found,rest)) : found.HasKey := by
  unfold statement? at h
  split at h
  · split at h
    · rename_i hk
      cases h
      exact key?_ne_nil hk
    · cases h
  · split at h
    · rename_i hk
      cases h
      exact key?_ne_nil hk
    · cases h
  · split at h
    · obtain ⟨⟨v,after⟩,-,h⟩ := Option.map_eq_some_iff.mp h
      cases h
      trivial
    · cases h

theorem hasKey_of_statementsFrom {rounds : Nat} {ss : List Statement}
    (h : statementsFrom rounds s = some ss) : ∀ found ∈ ss, found.HasKey := by
  induction rounds generalizing s ss with
  | zero => cases h
  | succ rounds ih =>
    simp only [statementsFrom] at h
    split at h
    · cases h
      nofun
    · obtain ⟨⟨first,after⟩,hf,h⟩ := Option.bind_eq_some_iff.mp h
      split at h
      · obtain ⟨more,hm,rfl⟩ := Option.map_eq_some_iff.mp h
        exact List.forall_mem_cons.mpr ⟨hasKey_of_statement? hf,ih hm⟩
      · cases h

end Statements

/-- The top-level keys of a document are the first parts of the keys that its text declares, and no
table of it has two entries of one key. -/
theorem Document.covered_of_read? {s : Bytes} {d : Document} (h : Document.read? s = some d) :
    (∀ k ∈ d.root.keys, ∃ key ∈ d.declared, key.head? = some k) ∧ d.root.Distinct := by
  obtain ⟨a,ha,rfl⟩ := Option.map_eq_some_iff.mp h
  obtain ⟨ss,hs,ha⟩ := Option.bind_eq_some_iff.mp ha
  obtain ⟨source,-,hs⟩ := Option.bind_eq_some_iff.mp hs
  have hempty : Assembly.Covered {} := fun _ hk => absurd hk List.not_mem_nil
  exact Assembly.covered_foldlM (hasKey_of_statementsFrom hs) hempty Table.distinct_nil ha

end WaylandZig.Toml
