import WaylandZig.Loading
import WaylandZig.Proofs.Fallible

/-! # Loaded sets

Files are loaded one after the other, and what is loaded is put together from what each file
contributes: a document and the warnings about it, or a warning that there is none. The first file
that cannot contribute stops the loading with its fault. The policy decides about files whose root is
no protocol and about nothing else.
-/
namespace WaylandZig.Loading

open Schema

/-- The fault of a file that stops the loading under the policy of a name. -/
def Stops (t : FileTree) (policy path : Bytes) (fault : ReadFault) : Prop :=
  readDocument t path = .error fault ∧
    ((∀ element, fault ≠ .notProtocol element) ∨ policy = "error")

/-- The documents and warnings that come from one file under the policy of a name. -/
inductive Contributes (t : FileTree) (policy : Bytes) (skip : List Bytes) (path : Bytes) :
    List Document → List Warning → Prop
  | passedOver {element : Bytes} (hr : readDocument t path = .error (.notProtocol element))
      (hw : policy ≠ "warn") (he : policy ≠ "error") : Contributes t policy skip path [] []
  | warnedOf {element : Bytes} (hr : readDocument t path = .error (.notProtocol element))
      (hw : policy = "warn") :
      Contributes t policy skip path []
        [⟨"not_protocol", path ++ ": skipped, " ++ "root element is not <protocol>"⟩]
  | unnamed {d : Document} (hr : readDocument t path = .ok d) (hn : d.nameSpace = []) :
      Contributes t policy skip path [withoutInterfaces d skip]
        [⟨"missing_namespace", "protocol " ++ Quoted.quote d.name ++ " has no namespace"⟩]
  | named {d : Document} (hr : readDocument t path = .ok d) (hn : d.nameSpace ≠ []) :
      Contributes t policy skip path [withoutInterfaces d skip]
        ((d.interfaces.filter fun i => ¬ (d.nameSpace ++ "_" : Bytes) <+: i.name).map fun i =>
          ⟨"namespace_mismatch", "protocol " ++ Quoted.quote d.name ++ ": interface "
            ++ Quoted.quote i.name ++ " does not start with "
            ++ Quoted.quote (d.nameSpace ++ "_")⟩)

def partOf (one : Loaded) : List Document × List Warning := (one.document?.toList,one.warnings)

variable {t : FileTree} {name : Bytes} {skip paths : List Bytes} {path : Bytes}

theorem ofName_eq_error_iff : MismatchPolicy.ofName name = .error ↔ name = "error" := by
  unfold MismatchPolicy.ofName
  split
  · rename_i h
    exact ⟨fun _ => h,fun _ => rfl⟩
  · rename_i h
    refine ⟨?_,fun he => absurd he h⟩
    split
    · nofun
    · nofun

theorem nameSpaceWarnings_named {d : Document} (h : d.nameSpace ≠ []) (path : Bytes) :
    (nameSpaceWarnings d path).map Prod.fst =
      (d.interfaces.filter fun i => ¬ (d.nameSpace ++ "_" : Bytes) <+: i.name).map fun i =>
        (outsideNameSpace d i).1 := by
  have hne : ¬ d.nameSpace.isEmpty = true := by simpa using h
  have hfilter : (fun i : Interface => !i.name.startsWith (d.nameSpace ++ "_")) =
      fun i => decide ¬ (d.nameSpace ++ "_" : Bytes) <+: i.name := by
    funext i
    rw [Bytes.startsWith, decide_not, Bool.not_inj_iff, Bool.eq_iff_iff, List.isPrefixOf_iff_prefix,
      decide_eq_true_iff]
  rw [nameSpaceWarnings, if_neg hne, List.map_map, hfilter]
  rfl

theorem nameSpaceWarnings_unnamed {d : Document} (h : d.nameSpace = []) (path : Bytes) :
    (nameSpaceWarnings d path).map Prod.fst = [(missingNameSpace d path).1] := by
  rw [nameSpaceWarnings, h]
  rfl

/-- A file contributes or stops the loading. -/
theorem contributes_or_stops (t : FileTree) (name : Bytes) (skip : List Bytes) (path : Bytes) :
    (∃ part : List Document × List Warning, Contributes t name skip path part.1 part.2) ∨
      ∃ f, Stops t name path f := by
  cases hr : readDocument t path with
  | ok d =>
    by_cases hn : d.nameSpace = []
    · exact .inl ⟨(_,_),.unnamed hr hn⟩
    · exact .inl ⟨(_,_),.named hr hn⟩
  | error f =>
    by_cases he : name = "error"
    · exact .inr ⟨f,hr,.inr he⟩
    cases f with
    | notProtocol element =>
      by_cases hw : name = "warn"
      · exact .inl ⟨(_,_),.warnedOf hr hw⟩
      · exact .inl ⟨(_,_),.passedOver hr hw he⟩
    | _ => exact .inr ⟨_,hr,.inl nofun⟩

theorem loadFile_of_contributes {ds : List Document} {ws : List Warning}
    (h : Contributes t name skip path ds ws) :
    (loadFile t (.ofName name) skip path).map partOf = .ok (ds,ws) := by
  have hdoc {d : Document} (hr : readDocument t path = .ok d) :
      loadFile t (.ofName name) skip path = .ok (accepted path skip d) := by
    simp only [loadFile, hr]
  have hpass {element : Bytes} (hr : readDocument t path = .error (.notProtocol element))
      (he : name ≠ "error") :
      loadFile t (.ofName name) skip path = .ok (passedOver path (.ofName name)) := by
    simp only [loadFile, hr]
    exact if_pos ⟨rfl,fun h => he (ofName_eq_error_iff.mp h)⟩
  cases h with
  | passedOver hr hw he =>
    rw [hpass hr he, MismatchPolicy.ofName, if_neg he, if_neg hw]
    rfl
  | warnedOf hr hw =>
    subst hw
    rw [hpass hr (by decide)]
    rfl
  | unnamed hr hn =>
    rw [hdoc hr, Except.map, partOf, accepted, nameSpaceWarnings_unnamed hn]
    rfl
  | named hr hn =>
    rw [hdoc hr, Except.map, partOf, accepted, nameSpaceWarnings_named hn]
    rfl

theorem loadFile_of_stops {f : ReadFault} (h : Stops t name path f) :
    loadFile t (.ofName name) skip path = .error (.document path f) := by
  obtain ⟨hr,hs⟩ := h
  simp only [loadFile, hr]
  -- The policy lets a file pass only when its root is no protocol and the policy is none that refuses.
  refine if_neg ?_
  rintro ⟨hp,hne⟩
  cases f with
  | notProtocol element =>
    rcases hs with hs | hs
    · exact hs element rfl
    · exact hne (ofName_eq_error_iff.mpr hs)
  | _ => exact Bool.false_ne_true hp

theorem contributes_iff {part : List Document × List Warning} :
    Contributes t name skip path part.1 part.2 ↔
      (loadFile t (.ofName name) skip path).map partOf = .ok part := by
  refine ⟨loadFile_of_contributes,fun h => ?_⟩
  rcases contributes_or_stops t name skip path with ⟨other,hc⟩ | ⟨f,hs⟩
  · rw [loadFile_of_contributes hc] at h
    cases h
    exact hc
  · rw [loadFile_of_stops hs] at h
    cases h

theorem loadFile_eq_error_iff {fault : LoadFault} :
    loadFile t (.ofName name) skip path = .error fault ↔
      ∃ f, Stops t name path f ∧ fault = .document path f := by
  constructor
  · intro h
    rcases contributes_or_stops t name skip path with ⟨other,hc⟩ | ⟨f,hs⟩
    · have hok := loadFile_of_contributes hc
      rw [h] at hok
      cases hok
    · rw [loadFile_of_stops hs] at h
      cases h
      exact ⟨f,hs,rfl⟩
  · rintro ⟨f,hs,rfl⟩
    exact loadFile_of_stops hs

theorem loadFiles_eq_mapM (t : FileTree) (policy : MismatchPolicy) (skip paths : List Bytes) :
    (loadFiles t false policy skip paths).1 = paths.mapM (loadFile t policy skip) := by
  induction paths with
  | nil => rfl
  | cons path rest ih =>
    rw [List.mapM_cons, ← ih]
    simp only [loadFiles, Bool.false_eq_true, if_false]
    cases loadFile t policy skip path with
    | error fault => rfl
    | ok one => cases (loadFiles t false policy skip rest).1 <;> rfl

/-- A loading puts the parts of its files together. -/
theorem load_eq_map (t : FileTree) (policy : MismatchPolicy) (skip paths : List Bytes) :
    (load t false policy skip paths).1 =
      (paths.mapM fun path => (loadFile t policy skip path).map partOf).map fun parts =>
        ⟨parts.flatMap Prod.fst,parts.flatMap Prod.snd⟩ := by
  have hl : (load t false policy skip paths).1 = (loadFiles t false policy skip paths).1.map
      fun ones => ⟨ones.filterMap Loaded.document?,ones.flatMap Loaded.warnings⟩ := rfl
  rw [hl, loadFiles_eq_mapM, Except.mapM_map]
  cases paths.mapM (loadFile t policy skip) with
  | error fault => rfl
  | ok ones =>
    simp only [Except.map, List.flatMap_map, List.filterMap_eq_flatMap_toList, partOf]

theorem load_eq_ok_iff {s : DocumentSet} :
    (load t false (.ofName name) skip paths).1 = .ok s ↔ ∃ parts,
      List.Forall₂ (fun path part => Contributes t name skip path part.1 part.2) paths parts ∧
        s = ⟨parts.flatMap Prod.fst,parts.flatMap Prod.snd⟩ := by
  rw [load_eq_map, Except.map_eq_ok_iff]
  simp only [Except.mapM_eq_ok_iff, contributes_iff, eq_comm (a := s)]

/-- A file that stops nothing has a part. -/
theorem exists_part_iff (skip : List Bytes) :
    (∃ part, (loadFile t (.ofName name) skip path).map partOf = .ok part) ↔
      ∀ f, ¬ Stops t name path f := by
  cases hl : loadFile t (.ofName name) skip path with
  | ok one =>
    refine ⟨fun _ f hs => ?_,fun _ => ⟨_,rfl⟩⟩
    rw [loadFile_eq_error_iff.mpr ⟨f,hs,rfl⟩] at hl
    cases hl
  | error fault =>
    obtain ⟨f,hs,-⟩ := loadFile_eq_error_iff.mp hl
    exact ⟨nofun,fun h => absurd hs (h f)⟩

theorem exists_load_eq_ok_iff : (∃ s, (load t false (.ofName name) skip paths).1 = .ok s) ↔
    ∀ path ∈ paths, ∀ f, ¬ Stops t name path f := by
  simp only [load_eq_map, ← exists_part_iff skip]
  rw [← Except.exists_mapM_eq_ok_iff]
  simp only [Except.map_eq_ok_iff]
  exact ⟨fun ⟨_,parts,h,_⟩ => ⟨parts,h⟩,fun ⟨parts,h⟩ => ⟨_,parts,h,rfl⟩⟩

theorem exists_load_eq_error_iff :
    (∃ fault, (load t false (.ofName name) skip paths).1 = .error fault) ↔
      ∃ path ∈ paths, ∃ f, Stops t name path f := by
  have hnot : (∃ fault, (load t false (.ofName name) skip paths).1 = .error fault) ↔
      ¬ ∃ s, (load t false (.ofName name) skip paths).1 = .ok s := by
    cases (load t false (.ofName name) skip paths).1 with
    | ok s => exact ⟨nofun,fun h => absurd ⟨s,rfl⟩ h⟩
    | error fault => exact ⟨fun _ => nofun,fun _ => ⟨fault,rfl⟩⟩
  rw [hnot, exists_load_eq_ok_iff]
  simp only [not_forall, not_not, exists_prop]

theorem load_eq_error_iff {fault : LoadFault} :
    (load t false (.ofName name) skip paths).1 = .error fault ↔ ∃ before path after f,
      paths = before ++ path :: after ∧ (∀ p ∈ before, ∀ g, ¬ Stops t name p g) ∧
        Stops t name path f ∧ fault = .document path f := by
  rw [load_eq_map, Except.map_eq_error_iff]
  constructor
  · intro h
    obtain ⟨before,path,after,rfl,hbefore,hpath⟩ := Except.mapM_eq_error h
    obtain ⟨f,hs,rfl⟩ := loadFile_eq_error_iff.mp (Except.map_eq_error_iff.mp hpath)
    exact ⟨before,path,after,f,rfl,fun p hp => (exists_part_iff skip).mp (hbefore p hp),hs,rfl⟩
  · rintro ⟨before,path,after,f,rfl,hbefore,hs,rfl⟩
    refine Except.mapM_append_cons_eq_error ?_ ?_ after
    · exact fun p hp => (exists_part_iff skip).mpr (hbefore p hp)
    · exact Except.map_eq_error_iff.mpr (loadFile_eq_error_iff.mpr ⟨f,hs,rfl⟩)

/-- Files that are passed over are so with or without a warning. -/
theorem load_skip_documents (t : FileTree) (skip paths : List Bytes) :
    (load t false (.ofName "skip") skip paths).1.map DocumentSet.documents =
      (load t false (.ofName "warn") skip paths).1.map DocumentSet.documents := by
  have hfile (path : Bytes) : (loadFile t (.ofName "skip") skip path).map (·.document?.toList) =
      (loadFile t (.ofName "warn") skip path).map (·.document?.toList) := by
    unfold loadFile
    cases readDocument t path with
    | ok d => rfl
    | error f =>
      cases f <;> rfl
  have hload (policy : MismatchPolicy) :
      (load t false policy skip paths).1.map DocumentSet.documents =
        (paths.mapM fun path => (loadFile t policy skip path).map (·.document?.toList)).map
          List.flatten := by
    rw [load_eq_map, Except.mapM_map, Except.mapM_map]
    cases paths.mapM (loadFile t policy skip) with
    | error fault => rfl
    | ok ones => simp only [Except.map, List.flatMap_def, List.map_map, Function.comp_def, partOf]
  simp only [hload, hfile]

/-- What a list of paths loads. It fails exactly if a file stops it, with the fault of the first such
file. Otherwise the documents and warnings are those that the files contribute, in the order of the
paths. Passing over with or without a warning makes no difference to the documents, and the policy
that refuses takes the lists that the others take if every root is a protocol. -/
theorem load_gathers_or_stops (t : FileTree) (name : Bytes) (skip paths : List Bytes) :
    ((∃ fault, (load t false (.ofName name) skip paths).1 = .error fault) ↔
      ∃ path ∈ paths, ∃ f, Stops t name path f) ∧
    (∀ fault, (load t false (.ofName name) skip paths).1 = .error fault ↔ ∃ before path after f,
      paths = before ++ path :: after ∧ (∀ p ∈ before, ∀ g, ¬ Stops t name p g) ∧
        Stops t name path f ∧ fault = .document path f) ∧
    (∀ s, (load t false (.ofName name) skip paths).1 = .ok s ↔ ∃ parts,
      List.Forall₂ (fun path part => Contributes t name skip path part.1 part.2) paths parts ∧
        s = ⟨parts.flatMap Prod.fst,parts.flatMap Prod.snd⟩) ∧
    (load t false (.ofName "skip") skip paths).1.map DocumentSet.documents =
      (load t false (.ofName "warn") skip paths).1.map DocumentSet.documents ∧
    ((∃ s, (load t false (.ofName "error") skip paths).1 = .ok s) ↔
      (∃ s, (load t false (.ofName "skip") skip paths).1 = .ok s) ∧
        ∀ path ∈ paths, ∀ element, readDocument t path ≠ .error (.notProtocol element)) := by
  refine ⟨exists_load_eq_error_iff,fun _ => load_eq_error_iff,fun _ => load_eq_ok_iff,
    load_skip_documents t skip paths,?_⟩
  rw [exists_load_eq_ok_iff, exists_load_eq_ok_iff, ← forall₂_and]
  have hskip : (Bytes.ofString "skip") ≠ "error" := by decide
  refine forall₂_congr fun path _ => ?_
  simp only [Stops, hskip, or_true, or_false, and_true, not_and, not_forall, not_not]
  constructor
  · intro h
    exact ⟨fun f hf => absurd hf (h f),fun element => h _⟩
  · rintro ⟨hs,hn⟩ f hf
    obtain ⟨element,rfl⟩ := hs f hf
    exact hn element hf

/-- A document whose name space is the whole name of an interface, one whose interfaces share
nothing, and one that is no protocol. -/
def mixedFiles : FileTree :=
  { nodes := [
      (["a.xml"],.file 0o644 "<protocol name='a'><interface name='wl' version='1'/><interface name='wl_b' version='1'/></protocol>"),
      (["b.xml"],.file 0o644 "<protocol name='b'><interface name='x' version='1'/><interface name='y' version='1'/></protocol>"),
      (["c.xml"],.file 0o644 "<note/>")] }

/-- With a warning the list is loaded, and the interface that is left out is warned of. The policy that
refuses stops at the file that is no protocol, behind one that it takes. -/
theorem mixedFiles_gathers_or_stops :
    (∃ s parts, (load mixedFiles false (.ofName "warn") ["wl"] ["b.xml","c.xml","a.xml"]).1 = .ok s ∧
      s.documents.flatMap Document.interfaceNames = ["x","y","wl_b"] ∧
      s.warnings.map Warning.code = ["missing_namespace","not_protocol","namespace_mismatch"] ∧
      List.Forall₂ (fun path (part : List Document × List Warning) =>
          Contributes mixedFiles "warn" ["wl"] path part.1 part.2)
        ["b.xml","c.xml","a.xml"] parts) ∧
    ∃ f, Stops mixedFiles "error" "c.xml" f := by
  have hload : ((load mixedFiles false (.ofName "warn") ["wl"] ["b.xml","c.xml","a.xml"]).1.map
      fun s => (s.documents.flatMap Document.interfaceNames,s.warnings.map Warning.code)) =
        .ok (["x","y","wl_b"],["missing_namespace","not_protocol","namespace_mismatch"]) := by
    decide +kernel
  obtain ⟨s,hs,hs'⟩ := Except.map_eq_ok_iff.mp hload
  obtain ⟨hd,hw⟩ := Prod.mk.inj hs'
  obtain ⟨-,-,hok,-⟩ := load_gathers_or_stops mixedFiles "warn" ["wl"] ["b.xml","c.xml","a.xml"]
  obtain ⟨parts,hp,-⟩ := (hok s).mp hs
  refine ⟨⟨s,parts,hs,hd,hw,hp⟩,?_⟩
  have hstop : (load mixedFiles false (.ofName "error") ["wl"] ["b.xml","c.xml","a.xml"]).1 =
      .error (.document "c.xml" (.notProtocol "note")) := by
    decide +kernel
  obtain ⟨-,herror,-⟩ := load_gathers_or_stops mixedFiles "error" ["wl"] ["b.xml","c.xml","a.xml"]
  obtain ⟨before,path,after,f,-,-,hf,he⟩ := (herror _).mp hstop
  obtain ⟨rfl,-⟩ := LoadFault.document.inj he
  exact ⟨f,hf⟩

end WaylandZig.Loading
