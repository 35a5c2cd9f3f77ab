import InlineTemplates.Config.Read
import InlineTemplates.Proofs.Config.Objects

/-! # A configuration is read however it is written -/

namespace InlineTemplates.Json

open Reader

theorem takes_next_quote {b w t : Text} (hb : Blanks b) (hw : SpellsString w t) (s : Text) :
    Takes next? (b ++ (w ++ s)) (w ++ s) (some '"') := by
  obtain ⟨-⟩ := hw
  exact .next? hb rfl _

theorem takes_next_brace {α : Type} {Spells : Text → Text × α → Prop} {b w : Text}
    {es : List (Text × α)} (hb : Blanks b) (hw : SpellsObject Spells w es) (s : Text) :
    Takes next? (b ++ (w ++ s)) (w ++ s) (some '\x7b') := by
  obtain ⟨-⟩ := hw
  exact .next? hb rfl _

/-! ## Values -/

theorem takes_value_string {b w t : Text} (hb : Blanks b) (hw : SpellsString w t) (depth : Nat)
    (s : Text) : Takes (value (depth + 1)) (b ++ (w ++ s)) s (.string t) := by
  unfold value
  refine (takes_next_quote hb hw s).bind ?_
  obtain ⟨hchars⟩ := hw
  change Takes (do skip; return Value.string (← string)) _ s _
  simpa using (Takes.skip _ _).bind ((takes_string hchars s).bind (.pure (Value.string t) s))

theorem takes_value_object {b w : Text} {fields : List (Text × Text)} (hb : Blanks b)
    (hw : SpellsObject (fun v f => SpellsString v f.2) w fields) (depth : Nat) (s : Text) :
    Takes (value (depth + 2)) (b ++ (w ++ s)) s
      (.object (fields.map fun f => (f.1, .string f.2))) := by
  unfold value
  refine (takes_next_brace hb hw s).bind ?_
  obtain ⟨hinside⟩ := hw
  have hentries := takes_entries (fun hb hv s => takes_value_string hb hv depth s) hinside s
  exact (Takes.opened (by omega) _ _).bind (takes_closed (hentries.bind (.pure _ _)))

theorem takes_skipAnyValue {b w t : Text} (hb : Blanks b) (hw : SpellsString w t) (s : Text) :
    Takes skipAnyValue (b ++ (w ++ s)) s () := by
  have hskip : ∀ fuel, Takes (skipValue (fuel + 1)) (b ++ (w ++ s)) s () := by
    intro fuel
    unfold skipValue
    refine (takes_next_quote hb hw s).bind ?_
    obtain ⟨hchars⟩ := hw
    change Takes (do skip; skipString) _ s _
    simpa using (Takes.skip _ _).bind (takes_skipString hchars s)
  intro p
  obtain ⟨q, hq⟩ := hskip (b ++ (w ++ s)).length p
  exact ⟨q, (run_bind_of_ok (run_get _)).trans hq⟩

end InlineTemplates.Json

namespace InlineTemplates.Config

open Json Json.Reader

/-! ## Modules -/

theorem takes_exportValue {b w e : Text} (hb : Blanks b) (hw : SpellsExport w e) (depth : Nat)
    (s : Text) : Takes (exportValue (depth + 2)) (b ++ (w ++ s)) s e := by
  unfold exportValue
  rcases hw with hw | ⟨fields, hw, hexport⟩
  · exact (takes_value_string hb hw _ s).bind (.pure e s)
  · refine (takes_value_object hb hw depth s).bind ?_
    have hfilter : (fields.map fun f => (f.1, Value.string f.2)).filter
        (fun f => f.1 == text "export") = [(text "export", .string e)] := by
      rw [List.filter_map]
      exact congrArg (List.map _) hexport
    simp only [exportOfValue?, hfilter]
    exact .pure e s

theorem takes_modulesValue {b w : Text} {entries : List ModuleEntry} (hb : Blanks b)
    (hw : SpellsModules w entries) (depth : Nat) (s : Text) :
    Takes (modulesValue (depth + 3)) (b ++ (w ++ s)) s (some entries) := by
  unfold modulesValue
  refine (takes_next_brace hb hw s).bind ?_
  obtain ⟨hinside⟩ := hw
  have hentries := takes_entries (f := id)
    (fun hb hv s => takes_exportValue hb hv depth s) hinside s
  simp only [id, List.map_id'] at hentries
  exact (Takes.opened (by omega) _ _).bind (takes_closed (hentries.bind (.pure _ _)))

/-! ## The configuration -/

/-- `modules` stands in no more than one place. -/
def OnceAtMost (found : List (Option (Option (List ModuleEntry))))
    (fields : List (Text × Option (List ModuleEntry))) : Prop :=
  (found.filterMap id).length + (fields.filterMap (·.2)).length ≤ 1

theorem OnceAtMost.any_eq_false {found : List (Option (Option (List ModuleEntry)))} {key : Text}
    {entries : List ModuleEntry} {fields : List (Text × Option (List ModuleEntry))}
    (h : OnceAtMost found ((key, some entries) :: fields)) : found.any Option.isSome = false := by
  have hnil : found.filterMap id = [] := by
    rw [← List.length_eq_zero_iff]
    have hfields : ((key, some entries) :: fields).filterMap (·.2) =
        entries :: fields.filterMap (·.2) := rfl
    rw [OnceAtMost, hfields, List.length_cons] at h
    omega
  simpa [List.filterMap_eq_nil_iff] using hnil

theorem OnceAtMost.grow {found : List (Option (Option (List ModuleEntry)))}
    {f : Text × Option (List ModuleEntry)} {fields : List (Text × Option (List ModuleEntry))}
    (h : OnceAtMost found (f :: fields)) : OnceAtMost (f.2.map some :: found) fields := by
  obtain ⟨key, entries⟩ := f
  cases entries <;> simp [OnceAtMost] at h ⊢ <;> omega

theorem takes_objectContent {w : Text} {fields : List (Text × Option (List ModuleEntry))}
    {entries : List ModuleEntry} (hw : SpellsInside SpellsField w fields)
    (hfields : fields.filterMap (·.2) = [entries]) (depth : Nat) (s : Text) :
    Takes (objectContent (depth + 3)) (w ++ '\x7d' :: s) ('\x7d' :: s) (some entries) := by
  unfold objectContent
  refine Takes.bind (?_ : Takes _ _ ('\x7d' :: s)
    (fields.foldl (fun found f => f.2.map some :: found) [])) ?_
  · refine ReadsEntries.takes (?_ : ReadsEntries SpellsField _ _ OnceAtMost) hw ?_ s
    · refine ⟨fun hb found s => (Takes.atKey_end hb _ s).bind (.pure _ _), ?_, by simp, ?_⟩
      · intro found lead w f fields hfits hlead hf s
        obtain ⟨s₁, s₂, b, v, hat, hkey, hcolon, hb, hv⟩ := hf.takes hlead s
        refine hat.bind (hkey.bind ?_)
        cases hv with
        | modules hv =>
          have hnone := hfits.any_eq_false
          rw [if_pos (by simp), if_neg (by simp [hnone])]
          exact hcolon.bind ((takes_modulesValue hb hv depth s).bind (.pure _ s))
        | other hother hv =>
          rw [if_neg (by simpa using hother)]
          exact hcolon.bind ((takes_skipAnyValue hb hv s).bind (.pure _ s))
      · exact fun hfits => hfits.grow
    · simp [OnceAtMost, hfields]
  · have hfound : (fields.foldl (fun found f => f.2.map some :: found) []).findSome? id =
        some (some entries) := by
      rw [List.foldl_flip_cons_eq_append, List.append_nil, ← List.head?_filterMap,
        List.filterMap_reverse, List.filterMap_map]
      have hsome : fields.filterMap (id ∘ fun f => f.2.map some) = [some entries] := by
        rw [← List.map_singleton, ← hfields, List.map_filterMap]
        rfl
      rw [hsome]
      rfl
    rw [hfound]
    exact .pure _ _

theorem takes_whole {source : Text} {entries : List ModuleEntry}
    (h : SpellsEntriesOf source entries) : Takes whole source [] ⟨some entries⟩ := by
  obtain ⟨b₁, w, b₂, fields, hb₁, hw, hb₂, rfl, hfields⟩ := h
  obtain ⟨hinside⟩ := hw
  have hcontent := takes_objectContent hinside hfields 124 b₂
  unfold whole
  have hnext := takes_next_brace hb₁ (.braced hinside) b₂
  rw [← List.append_assoc] at hnext
  exact hnext.bind ((Takes.opened (by decide) _ _).bind ((takes_closed hcontent).bind
    ((Takes.textEnd hb₂).bind (.pure _ []))))

theorem ofJson?_of_spells {source : Text} {entries : List ModuleEntry}
    (h : SpellsEntriesOf source entries) : ofJson? source = .ok ⟨some entries⟩ := by
  obtain ⟨q, hrun⟩ := takes_whole h ⟨1, 0⟩
  have hwhole : (whole.run { rest := source }).1 = .ok ⟨some entries⟩ := congrArg Prod.fst hrun
  simp only [ofJson?, hwhole]

end InlineTemplates.Config
