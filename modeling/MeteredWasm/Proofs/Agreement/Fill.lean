import MeteredWasm.Proofs.Agreement.Compute
import MeteredWasm.Sandbox.Linking
import MeteredWasm.Wasm.Module.MapFunc

/-!
# Filling storage

Globals and segments of a module with functions renamed fill a storage that agrees into one that
agrees (`fill_agrees`).
-/

set_option autoImplicit false

namespace MeteredWasm.Linking

open Wasm Machine

section
variable {g : UInt32 → UInt32} {st st' : Storage}

/-- Renaming functions in all items of a list, with one action for each. -/
theorem forM_agrees {α : Type} {act : α → Action Unit} {change : α → α}
    (hact : ∀ x st st', st.Agrees g nothing st' →
      Alike (Storage.Agrees g nothing) (fun _ _ => True) (act x st) (act (change x) st'))
    (xs : List α) (h : st.Agrees g nothing st') :
    Alike (Storage.Agrees g nothing) (fun _ _ => True) ((xs.forM act : Action Unit) st)
      (((xs.map change).forM act : Action Unit) st') := by
  induction xs generalizing st st' with
  | nil => exact .ok trivial h
  | cons x xs ih => exact (hact x st st' h).bind fun _ _ _ _ _ hst => ih hst

theorem mapM_agrees {α β : Type} {act : α → Action β} {change : α → α} {rename : β → β}
    (hact : ∀ x st st', st.Agrees g nothing st' →
      Alike (Storage.Agrees g nothing) (fun y y' => y' = rename y) (act x st)
        (act (change x) st'))
    (xs : List α) (h : st.Agrees g nothing st') :
    Alike (Storage.Agrees g nothing) (fun ys ys' => ys' = ys.map rename)
      ((xs.mapM act : Action (List β)) st) (((xs.map change).mapM act : Action (List β)) st') := by
  induction xs generalizing st st' with
  | nil => exact .ok rfl h
  | cons x xs ih =>
    simp only [List.map_cons, List.mapM_cons]
    refine (hact x st st' h).bind fun y y' st₁ st₁' hy hst => ?_
    refine (ih hst).bind fun ys ys' st₂ st₂' hys hst₂ => ?_
    subst hy hys
    exact .ok rfl hst₂

variable (h : st.Agrees g nothing st')
include h

theorem constFold_agrees (e : ConstExpr) (vs : List Value) :
    Alike (Storage.Agrees g nothing) (Renamed g)
      ((e.foldlM (fun vs op => compute op vs) vs : Action (List Value)) st)
      (((ConstExpr.mapFunc g e).foldlM (fun vs op => compute op vs)
        (vs.map (Value.mapFunc g)) : Action (List Value)) st') := by
  induction e generalizing vs st st' with
  | nil => exact .ok rfl h
  | cons op e ih =>
    refine (compute_agrees h (heeds_nothing st op vs)).bind fun vs₁ _ st₁ st₁' hvs hst => ?_
    rw [hvs]
    exact ih hst vs₁

theorem constValue_agrees (e : ConstExpr) :
    Alike (Storage.Agrees g nothing) (fun v v' => v' = v.mapFunc g) (constValue e st)
      (constValue (ConstExpr.mapFunc g e) st') := by
  refine (constFold_agrees h e []).bind fun vs _ st₁ st₁' hvs hst => ?_
  rw [hvs]
  cases vs with
  | nil => exact .trap hst
  | cons v vs => exact .ok rfl hst

theorem elementRefs_agrees (e : Element) :
    Alike (Storage.Agrees g nothing) (fun refs refs' => refs' = refs.map (Option.map g))
      (elementRefs e st) (elementRefs (e.mapFunc g) st') := by
  obtain ⟨mode, items⟩ := e
  cases items with
  | functions indices =>
    refine .ok ?_ h
    simp [List.map_map, Function.comp_def]
  | expressions type items =>
    refine mapM_agrees (fun item st st' h => ?_) items h
    refine (constValue_agrees h item).bind fun v _ st₁ st₁' hv hst => ?_
    rw [hv, Value.reference_mapFunc]
    cases v.reference with
    | ok r => exact .ok rfl hst
    | error t => exact .trap hst

theorem addGlobal_agrees (x : Global) :
    Alike (Storage.Agrees g nothing) (fun _ _ => True) (addGlobal x st)
      (addGlobal (x.mapFunc g) st') := by
  refine (constValue_agrees h x.init).bind fun v _ st₁ st₁' hv hst => ?_
  rw [hv]
  exact alike_modify { hst with globals := by simp [hst.globals] }

theorem addElement_agrees (e : Element) :
    Alike (Storage.Agrees g nothing) (fun _ _ => True) (addElement e st)
      (addElement (e.mapFunc g) st') := by
  refine (elementRefs_agrees h e).bind fun refs _ st₁ st₁' hrefs hst => ?_
  subst hrefs
  have hkeep {st st' : Storage} (hst : st.Agrees g nothing st') (kept : List (Option UInt32)) :
      Alike (Storage.Agrees g nothing) (fun _ _ => True)
        ((modify fun st => { st with elements := st.elements ++ [kept] } : Action PUnit) st)
        ((modify fun st => { st with
            elements := st.elements ++ [kept.map (Option.map g)] } : Action PUnit) st') :=
    alike_modify { hst with elements := by simp [hst.elements] }
  obtain ⟨mode, items⟩ := e
  cases mode with
  | active table offset =>
    refine (constValue_agrees hst offset).bind fun v _ st₂ st₂' hv hst₂ => ?_
    rw [hv, Value.index_mapFunc]
    cases v.index with
    | error t => exact .trap hst₂
    | ok n =>
      exact (Alike.writeTable hst₂ _ n refs).bind fun _ _ _ _ _ hst₃ => hkeep hst₃ []
  | passive => exact hkeep hst refs
  | declared => exact hkeep hst []

theorem addData_agrees (d : Data) :
    Alike (Storage.Agrees g nothing) (fun _ _ => True) (addData d st)
      (addData (d.mapFunc g) st') := by
  have hkeep {st st' : Storage} (hst : st.Agrees g nothing st') (kept : Bytes) :
      Alike (Storage.Agrees g nothing) (fun _ _ => True)
        ((modify fun st => { st with datas := st.datas ++ [kept] } : Action PUnit) st)
        ((modify fun st => { st with datas := st.datas ++ [kept] } : Action PUnit) st') :=
    alike_modify { hst with datas := by simp [hst.datas] }
  obtain ⟨mode, bytes⟩ := d
  cases mode with
  | active memory offset =>
    refine (constValue_agrees h offset).bind fun v _ st₁ st₁' hv hst => ?_
    rw [hv, Value.index_mapFunc]
    cases v.index with
    | error t => exact .trap hst
    | ok n => exact (Alike.writeMemory hst _ n bytes).bind fun _ _ _ _ _ hst₂ => hkeep hst₂ []
  | passive => exact hkeep h bytes

/-- Storages that agree are filled alike. -/
theorem fill_agrees {m m' : Module} (globals : m'.globals = m.globals.map (Global.mapFunc g))
    (elements : m'.elements = m.elements.map (Element.mapFunc g))
    (datas : m'.datas = m.datas.map (Data.mapFunc g)) :
    Alike (Storage.Agrees g nothing) (fun _ _ => True) (fill m st) (fill m' st') := by
  unfold fill
  rw [globals, elements, datas]
  refine (forM_agrees (fun x _ _ h => addGlobal_agrees h x) _ h).bind fun _ _ _ _ _ hst => ?_
  refine (forM_agrees (fun x _ _ h => addElement_agrees h x) _ hst).bind fun _ _ _ _ _ hst => ?_
  exact forM_agrees (fun x _ _ h => addData_agrees h x) _ hst

end

end MeteredWasm.Linking
