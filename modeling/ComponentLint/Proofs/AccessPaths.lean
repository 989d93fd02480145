import ComponentLint.Rule.ArrayAccess
import Mathlib.Data.List.Basic
import Mathlib.Logic.ExistsUnique

/-!
# Receivers as paths of accesses

A receiver is a base with a path of accesses, to properties and to elements, and parentheses can stand
around it and around the object of each access. Every expression is this in exactly one way, if the base
has to be neither an access nor in parentheses. Where only names are looked at, a receiver is taken for
an array exactly if its base is, or if some access on the path names a method of arrays.
-/

namespace ComponentLint.ArrayAccess

open Script (Expr)

/-- An access: to a property, or to an element by the key in the brackets. -/
inductive Access where
  | property (name : String)
  | element (key : Expr)

/-- An access names its property. The key of an element names one only if it is a bare name. -/
inductive Access.Names : Access → String → Prop where
  | property (name) : Names (.property name) name
  | element (span name) : Names (.element (.name span name)) name

/-- `Leads base path e`: the accesses of the path, the last one first, lead from the base to `e`. -/
inductive Leads (base : Expr) : List Access → Expr → Prop where
  | base : Leads base [] base
  | paren {path e} (span) (h : Leads base path e) : Leads base path (.paren span e)
  | member {path object} (span name optional) (h : Leads base path object) :
    Leads base (.property name :: path) (.member span object name optional)
  | index {path object} (span key optional) (h : Leads base path object) :
    Leads base (.element key :: path) (.index span object key optional)

/-- An expression that is no access and does not stand in parentheses. -/
def IsBase : Expr → Prop
  | .paren _ _ => False
  | .member _ _ _ _ => False
  | .index _ _ _ _ => False
  | _ => True

theorem exists_leads (e : Expr) : ∃ base path, IsBase base ∧ Leads base path e := by
  cases e with
  | paren span inner =>
    obtain ⟨base, path, hbase, hleads⟩ := exists_leads inner
    exact ⟨base, path, hbase, .paren span hleads⟩
  | member span object name optional =>
    obtain ⟨base, path, hbase, hleads⟩ := exists_leads object
    exact ⟨base, .property name :: path, hbase, .member span name optional hleads⟩
  | index span object key optional =>
    obtain ⟨base, path, hbase, hleads⟩ := exists_leads object
    exact ⟨base, .element key :: path, hbase, .index span key optional hleads⟩
  | _ =>
    refine ⟨_, [], ?_, .base⟩
    trivial

theorem Leads.unique {base base' e : Expr} {path path' : List Access} (h : Leads base path e)
    (h' : Leads base' path' e) (hbase : IsBase base) (hbase' : IsBase base') :
    base = base' ∧ path = path' := by
  induction h generalizing path' with
  | base =>
    cases h' with
    | base => exact ⟨rfl, rfl⟩
    | paren | member | index => exact hbase.elim
  | paren span _ ih =>
    cases h' with
    | base => exact hbase'.elim
    | paren _ h' => exact ih h'
  | member span name optional _ ih =>
    cases h' with
    | base => exact hbase'.elim
    | member _ _ _ h' =>
      obtain ⟨hsame, hpath⟩ := ih h'
      exact ⟨hsame, congrArg _ hpath⟩
  | index span key optional _ ih =>
    cases h' with
    | base => exact hbase'.elim
    | index _ _ _ h' =>
      obtain ⟨hsame, hpath⟩ := ih h'
      exact ⟨hsame, congrArg _ hpath⟩

/-- An access that names a method of arrays. -/
def Access.NamesMethod (access : Access) : Prop :=
  ∃ name, access.Names name ∧ name ∈ Naming.arrayMethods

theorem namesMethod_property_iff (name : String) :
    (Access.property name).NamesMethod ↔ Naming.isArrayMethod name = true := by
  rw [Naming.isArrayMethod, List.contains_iff_mem]
  constructor
  · rintro ⟨_, ⟨⟩, hmem⟩
    exact hmem
  · intro hmem
    exact ⟨name, .property name, hmem⟩

theorem namesMethod_element_iff (key : Expr) :
    (Access.element key).NamesMethod ↔ key.name?.any Naming.isArrayMethod = true := by
  constructor
  · rintro ⟨name, ⟨⟩, hmem⟩
    exact List.contains_iff_mem.mpr hmem
  · intro hkey
    obtain ⟨name, hname, hmethod⟩ := Option.any_eq_true _ _ |>.mp hkey
    cases key with
    | name span text =>
      obtain rfl := Option.some.inj hname
      exact ⟨text, .element span text, List.contains_iff_mem.mp hmethod⟩
    | _ => cases hname

theorem Leads.looksLikeArray_iff {base e : Expr} {path : List Access} (h : Leads base path e) :
    looksLikeArray e = true ↔
      looksLikeArray base = true ∨ ∃ access ∈ path, access.NamesMethod := by
  induction h with
  | base => simp
  | paren _ _ ih => exact ih
  | member span name optional _ ih =>
    rw [looksLikeArray, Bool.or_eq_true, ih, ← namesMethod_property_iff, List.exists_mem_cons_iff]
    exact or_left_comm
  | index span key optional _ ih =>
    rw [looksLikeArray, Bool.or_eq_true, ih, ← namesMethod_element_iff, List.exists_mem_cons_iff]
    exact or_left_comm

/-- Every receiver is a base with a path of accesses, in one way only. Whatever the base is, names tell
of an array exactly if they do so at the base or an access of the path names a method of arrays. So a
receiver that looks like an array does so with further accesses too. -/
theorem looksLikeArray_along_path :
    (∀ e, ∃! way : Expr × List Access, IsBase way.1 ∧ Leads way.1 way.2 e) ∧
    ∀ {base e : Expr} {path : List Access}, Leads base path e →
      (looksLikeArray e = true ↔ looksLikeArray base = true ∨
        ∃ access ∈ path, ∃ name, access.Names name ∧ name ∈ Naming.arrayMethods) ∧
      (looksLikeArray base = true → looksLikeArray e = true) := by
  refine ⟨fun e => ?_, fun h => ?_⟩
  · obtain ⟨base, path, hbase, hleads⟩ := exists_leads e
    refine ⟨(base, path), ⟨hbase, hleads⟩, ?_⟩
    rintro ⟨base', path'⟩ ⟨hbase', hleads'⟩
    obtain ⟨rfl, rfl⟩ := hleads'.unique hleads hbase' hbase
    rfl
  · exact ⟨h.looksLikeArray_iff, fun hbase => h.looksLikeArray_iff.mpr (Or.inl hbase)⟩

/-- In `((user)[sort])[0].x` a bare key is the only evidence. -/
theorem looksLikeArray_along_path_key :
    let user : Expr := .name ⟨2, 6⟩ "user"
    let method : Expr := .index ⟨1, 13⟩ (.paren ⟨1, 7⟩ user) (.name ⟨8, 12⟩ "sort") false
    let first : Expr := .index ⟨0, 17⟩ (.paren ⟨0, 14⟩ method) (.number ⟨15, 16⟩ (.ofNat 0)) false
    let receiver : Expr := .member ⟨0, 19⟩ first "x" false
    looksLikeArray user = false ∧ looksLikeArray receiver = true := by
  intro user method first receiver
  have hleads : Leads user [.property "x", .element (.number ⟨15, 16⟩ (.ofNat 0)),
      .element (.name ⟨8, 12⟩ "sort")] receiver :=
    .member _ _ _ (.index _ _ _ (.paren _ (.index _ _ _ (.paren _ .base))))
  refine ⟨by decide, (looksLikeArray_along_path.2 hleads).1.mpr (Or.inr ?_)⟩
  exact ⟨.element (.name ⟨8, 12⟩ "sort"), by simp, "sort", .element _ _, by decide⟩

end ComponentLint.ArrayAccess
