import TagLift.Proofs.Migration.Scopes
import TagLift.Proofs.Print.Fits
import TagLift.Proofs.Tree.Spans

/-!
# The edits of a migration

A migrated declaration keeps its place, and the span of its doc comment, and gets attribute groups
at its end at most. So the edits of a migrated statement fit its zones. A migrated unit is a
revision of the old one: in the scope whose imports are resolved the old imports are dropped, and
new imports are added at one place of a scope that declares a class.
-/

namespace TagLift

/-- The new declaration stands where the old one does and has more attribute groups at most. -/
structure Declaration.Grown (old new : Declaration) : Prop where
  span : new.span = old.span
  anchor : new.attributeAnchor = old.attributeAnchor
  doc : new.doc.map (·.span) = old.doc.map (·.span)
  groups : new.groups.filterMap (·.span) = old.groups.filterMap (·.span)

namespace Declaration

theorem Grown.fullSpan {old new : Declaration} (grown : old.Grown new) :
    new.fullSpan = old.fullSpan :=
  fullSpan_congr grown.span grown.doc

theorem grown_refl (decl : Declaration) : decl.Grown decl :=
  ⟨rfl, rfl, rfl, rfl⟩

theorem Grown.trans {first second third : Declaration} (grown : first.Grown second)
    (grown' : second.Grown third) : first.Grown third :=
  ⟨grown'.span.trans grown.span, grown'.anchor.trans grown.anchor, grown'.doc.trans grown.doc,
    grown'.groups.trans grown.groups⟩

theorem grown_strip (decl : Declaration) (kinds : List DirectiveKind) :
    decl.Grown (decl.strip kinds) := by
  refine ⟨rfl, rfl, ?_, rfl⟩
  simp [strip, Function.comp_def]

theorem grown_pushAll (decl : Declaration) (directives : List Directive) :
    decl.Grown (decl.pushAll directives) := by
  refine ⟨rfl, rfl, rfl, ?_⟩
  obtain ⟨added, equal, pushed⟩ :=
    AttributeGroup.foldl_pushUnique_eq_append (directives.map Directive.toGroup) decl.groups
  have new : added.filterMap (·.span) = [] := by
    rw [List.filterMap_eq_nil_iff]
    intro group member
    obtain ⟨directive, -, rfl⟩ := List.mem_map.1 (pushed member)
    rfl
  rw [pushAll, equal, List.filterMap_append, new, List.append_nil]

theorem grown_migratedMethod (decl : Declaration) : decl.Grown decl.migratedMethod :=
  (grown_pushAll decl _).trans (grown_strip _ _)

end Declaration

theorem ClassDecl.grown_migrated (decl : ClassDecl) : decl.decl.Grown decl.migrated.decl := by
  by_cases proper : decl.kind = .cls
  · rw [migrated_decl_of_cls decl proper]
    exact ((Declaration.grown_pushAll decl.decl _).trans (Declaration.grown_strip _ _)).trans
      (Declaration.grown_pushAll _ _)
  · rw [migrated_decl_of_not_cls decl proper]
    exact Declaration.grown_refl decl.decl

theorem Stmt.span?_migrated (stmt : Stmt) : stmt.migrated.span? = stmt.span? := by
  cases stmt with
  | classLike decl => exact congrArg some decl.grown_migrated.fullSpan
  | nspace | uses | enclosing | inclusion | declare | other => rfl

theorem Stmt.isPreamble_migrated (stmt : Stmt) : stmt.migrated.isPreamble = stmt.isPreamble := by
  cases stmt <;> rfl

theorem Stmt.isUse_of_isPreamble {stmt : Stmt} (leads : stmt.isPreamble) : stmt.isUse = false := by
  cases stmt with
  | uses => cases leads
  | nspace | classLike | enclosing | inclusion | declare | other => rfl

/-- A scope that requires an import declares a class. -/
theorem Stmt.exists_not_isUse_of_required {stmts : List Stmt}
    (required : requiredNames (stmts.flatMap classes) ≠ []) :
    ∃ stmt ∈ stmts, stmt.isUse = false := by
  obtain ⟨name, member⟩ := List.exists_mem_of_ne_nil _ required
  have found : name ∈ importNames (stmts.flatMap classes) := mem_sortUnique.1 member
  obtain ⟨decl, inside, -⟩ := mem_importNames.1 found
  obtain ⟨stmt, member, inside⟩ := List.mem_flatMap.1 inside
  refine ⟨stmt, member, Bool.eq_false_iff.2 fun use => ?_⟩
  rw [classes_eq_nil_of_isUse use] at inside
  cases inside

namespace Print

theorem docSpans_eq_flatMap (decls : List Declaration) :
    docSpans decls = decls.flatMap fun decl => docSpans [decl] := by
  induction decls with
  | nil => rfl
  | cons decl decls ih => rw [List.flatMap_cons, ← ih, ← docSpans_append, List.singleton_append]

theorem flatMap_zip_map {α β : Type} (items : List α) (f : α → α) (edits : α × α → List β) :
    (items.zip (items.map f)).flatMap edits = items.flatMap fun item => edits (item, f item) := by
  induction items with
  | nil => rfl
  | cons item items ih => simp [ih]

/-- A changed doc comment is replaced as a whole. -/
theorem fits_docEdit {source : Text} {root : Node} {lo hi : Nat} {old new : Declaration}
    {clear : Nat → Prop} (formed : root.WellFormed source)
    (stands : old.Stands source root lo hi) (grown : old.Grown new) :
    Fits source clear (docSpans [old]) (Page.docEdit old new) := by
  cases had : old.doc with
  | none =>
      simp only [Page.docEdit, had]
      exact .nothing _
  | some oldDoc =>
      obtain ⟨comment, inTree, kind, span, -⟩ := stands.doc oldDoc had
      have same := grown.doc
      rw [had] at same
      obtain ⟨newDoc, has, equal⟩ := Option.map_eq_some_iff.1 same
      obtain ⟨start, stop, order⟩ := formed.bounds comment inTree
      have zones : docSpans [old] = [comment.span] := by simp [docSpans, had, span]
      simp only [Page.docEdit, had, has, equal, span, zones]
      split
      · exact .nothing _
      · exact .removal (formed.solid comment inTree (.inl kind)).filled
          (Edit.inBounds_iff.2 ⟨order, start, stop⟩) (Nat.le_refl _) (Nat.le_refl _) .nil

theorem revised_add {page : Page} {drops : Stmt → Bool} {clear : Nat → Prop}
    {olds added news : List Stmt} (new : ∀ stmt ∈ added, stmt.span? = none)
    (rest : Revised page drops clear olds news) :
    Revised page drops clear olds (added ++ news) := by
  induction added with
  | nil => exact rest
  | cons stmt added ih =>
      exact .add (new stmt (by simp)) (ih fun other member => new other (by simp [member]))

section Stmt

variable {page : Page} {root : Node} {drops : Stmt → Bool} {opening : Bool} {lo hi : Nat}
  {stmts : List Stmt} (formed : root.WellFormed page.source)
  (lined : Stmt.Lined page.source root opening lo hi stmts)

include formed lined

/-- New attribute groups go behind a group or in front of a node of the declaration. -/
theorem fits_groupEdit {stmt : Stmt} {old new : Declaration} (member : stmt ∈ stmts)
    (declared : old ∈ stmt.declarations) (grown : old.Grown new) :
    Fits page.source (Clear page.source (stmts.flatMap (page.zones drops))) []
      (page.groupEdit new) := by
  obtain ⟨span, stands, -⟩ := lined.exists_stands member
  have inside := stands.placed.each old declared
  simp only [Page.groupEdit]
  split
  · exact .nil
  · split
    next last found =>
      rw [grown.groups] at found
      obtain ⟨group, isGroup, spanned⟩ := List.mem_filterMap.1 (List.mem_of_getLast? found)
      obtain ⟨node, inTree, equal, lower, upper⟩ := inside.groups group isGroup
      obtain rfl : node.span = last := Option.some.inj (equal.symm.trans spanned)
      exact .insertion _ (clear_node_stop formed lined member declared inTree lower upper) .nil
    next =>
      obtain ⟨node, inTree, equal, lower, upper⟩ := inside.anchor
      rw [grown.anchor, equal]
      exact .insertion _ (clear_node_start formed lined member declared inTree lower upper) .nil

theorem fits_diffDeclaration {stmt : Stmt} {old new : Declaration} (member : stmt ∈ stmts)
    (declared : old ∈ stmt.declarations) (grown : old.Grown new) :
    Fits page.source (Clear page.source (stmts.flatMap (page.zones drops))) (docSpans [old])
      (page.diffDeclaration old new) := by
  obtain ⟨span, stands, -⟩ := lined.exists_stands member
  rw [← List.append_nil (docSpans [old])]
  exact (fits_docEdit formed (stands.placed.each old declared) grown).append
    (fits_groupEdit formed lined member declared grown)

theorem fits_diffClass {stmt : Stmt} {decl : ClassDecl} (member : stmt ∈ stmts)
    (declared : decl ∈ stmt.classes) :
    Fits page.source (Clear page.source (stmts.flatMap (page.zones drops)))
      (docSpans decl.declarations) (page.diffClass decl decl.migrated) := by
  have declared' : ∀ inner ∈ decl.declarations, inner ∈ stmt.declarations :=
    fun inner inside => List.mem_flatMap.2 ⟨decl, declared, inside⟩
  rw [docSpans_eq_flatMap, ClassDecl.declarations, List.flatMap_cons]
  refine (fits_diffDeclaration formed lined member (declared' _ List.mem_cons_self)
    decl.grown_migrated).append ?_
  rw [ClassDecl.migrated, flatMap_zip_map]
  exact .flatMap fun method inside => fits_diffDeclaration formed lined member
    (declared' method (List.mem_cons_of_mem _ inside)) method.grown_migratedMethod

/-- The edits of a migrated statement fit its zones. -/
theorem fits_diffStmt {stmt : Stmt} (member : stmt ∈ stmts) :
    Fits page.source (Clear page.source (stmts.flatMap (page.zones drops)))
      (page.zones drops stmt) (page.diffStmt stmt stmt.migrated) := by
  obtain ⟨span, stands, -⟩ := lined.exists_stands member
  cases stmt with
  | nspace head body => cases stands.plain
  | classLike decl =>
      have zones : page.zones drops (.classLike decl) = docSpans decl.declarations := by
        simp [Page.zones, Stmt.isUse, Stmt.declarations, Stmt.classes]
      rw [zones]
      exact fits_diffClass formed lined member List.mem_cons_self
  | enclosing outer classes =>
      have zones : page.zones drops (.enclosing outer classes) =
          classes.flatMap fun decl => docSpans decl.declarations := by
        simp only [Page.zones, Stmt.isUse, Stmt.declarations, Stmt.classes, Bool.false_eq_true,
          if_false]
        rw [docSpans_eq_flatMap, List.flatMap_assoc]
        exact List.flatMap_congr fun decl _ => (docSpans_eq_flatMap _).symm
      have edits :
          page.diffStmt (.enclosing outer classes) (Stmt.enclosing outer classes).migrated =
            classes.flatMap fun decl => page.diffClass decl decl.migrated :=
        flatMap_zip_map classes ClassDecl.migrated fun pair => page.diffClass pair.1 pair.2
      rw [zones, edits]
      exact .flatMap fun decl inside => fits_diffClass formed lined member inside
  | uses | inclusion | declare | other => exact .nothing _

theorem erasable_of_dropped {stmt : Stmt} (member : stmt ∈ stmts)
    (dropped : (stmt.isUse && drops stmt) = true) : page.Erasable drops stmt := by
  obtain ⟨span, stands, -, solid | ⟨-, opens⟩⟩ := lined.exists_stands member
  · exact ⟨dropped, span, stands.spanned, solid.filled, stands.boundary_start formed,
      stands.boundary_stop formed⟩
  · simp [opens.notUse] at dropped

/-- A statement that is not dropped is kept in its migrated form. -/
theorem revised_keep {stmt : Stmt} {olds news : List Stmt} (member : stmt ∈ stmts)
    (stays : (stmt.isUse && drops stmt) = false)
    (stops : (∀ other ∈ news, other.span?.isSome) ∨ ∀ span, stmt.span? = some span →
      Clear page.source (stmts.flatMap (page.zones drops)) span.stop)
    (rest : Revised page drops (Clear page.source (stmts.flatMap (page.zones drops))) olds news) :
    Revised page drops (Clear page.source (stmts.flatMap (page.zones drops))) (stmt :: olds)
      (stmt.migrated :: news) := by
  obtain ⟨span, stands, -⟩ := lined.exists_stands member
  refine .keep stands.spanned (by rw [Stmt.span?_migrated, stands.spanned]) stays ?_
    (stops.imp id fun clear => clear span stands.spanned) rest
  rw [Stmt.leaves_of_not_isNamespace stands.plain, List.flatMap_singleton]
  exact fits_diffStmt formed lined member

/-- The statements that are not dropped, migrated, are a revision. -/
theorem revised_filter {olds : List Stmt} (inside : ∀ stmt ∈ olds, stmt ∈ stmts) :
    Revised page drops (Clear page.source (stmts.flatMap (page.zones drops))) olds
      ((olds.filter fun stmt => !(stmt.isUse && drops stmt)).map Stmt.migrated) := by
  induction olds with
  | nil => exact .nil
  | cons stmt olds ih =>
      have member := inside stmt (by simp)
      have inside' : ∀ other ∈ olds, other ∈ stmts :=
        fun other later => inside other (by simp [later])
      cases dropped : stmt.isUse && drops stmt with
      | true =>
          rw [List.filter_cons_of_neg (by simp [dropped])]
          exact .drop (erasable_of_dropped formed lined member dropped) (ih inside')
      | false =>
          rw [List.filter_cons_of_pos (by simp [dropped]), List.map_cons]
          refine revised_keep formed lined member dropped (.inl fun other later => ?_) (ih inside')
          obtain ⟨old, isOld, rfl⟩ := List.mem_map.1 later
          obtain ⟨span, stands, -⟩ := lined.exists_stands (inside' old (List.mem_filter.1 isOld).1)
          simp [Stmt.span?_migrated, stands.spanned]

/-- So they are with new imports behind statements that the source is clear behind. -/
theorem revised_insert {olds front added back : List Stmt} (inside : ∀ stmt ∈ olds, stmt ∈ stmts)
    (kept : (olds.filter fun stmt => !(stmt.isUse && drops stmt)).map Stmt.migrated = front ++ back)
    (new : ∀ stmt ∈ added, stmt.span? = none)
    (stops : ∀ stmt ∈ olds, stmt.migrated ∈ front → ∀ span, stmt.span? = some span →
      Clear page.source (stmts.flatMap (page.zones drops)) span.stop) :
    Revised page drops (Clear page.source (stmts.flatMap (page.zones drops))) olds
      (front ++ added ++ back) := by
  induction olds generalizing front with
  | nil =>
      obtain ⟨rfl, rfl⟩ := List.append_eq_nil_iff.1 kept.symm
      exact revised_add new .nil
  | cons stmt olds ih =>
      cases front with
      | nil =>
          rw [List.nil_append] at kept ⊢
          rw [← kept]
          exact revised_add new (revised_filter formed lined inside)
      | cons first front =>
          have member := inside stmt (by simp)
          have inside' : ∀ other ∈ olds, other ∈ stmts :=
            fun other later => inside other (by simp [later])
          cases dropped : stmt.isUse && drops stmt with
          | true =>
              rw [List.filter_cons_of_neg (by simp [dropped])] at kept
              exact .drop (erasable_of_dropped formed lined member dropped)
                (ih inside' kept fun other later => stops other (by simp [later]))
          | false =>
              rw [List.filter_cons_of_pos (by simp [dropped]), List.map_cons, List.cons_append,
                List.cons.injEq] at kept
              obtain ⟨rfl, kept⟩ := kept
              exact revised_keep formed lined member dropped
                (.inr (stops stmt (by simp) (by simp)))
                (ih inside' kept fun other later inFront => stops other (by simp [later])
                  (by simp [inFront]))

/-- The edits of a scope fit its zones: what is not dropped is migrated, and new imports stand
behind the leading inclusions and `declare` statements or in front of all. -/
theorem fits_scope {olds front added back : List Stmt} {container : Container}
    (part : olds.Sublist stmts)
    (kept : (olds.filter fun stmt => !(stmt.isUse && drops stmt)).map Stmt.migrated = front ++ back)
    (new : ∀ stmt ∈ added, stmt.span? = none)
    (preamble : ∀ stmt ∈ olds, stmt.migrated ∈ front → stmt.isPreamble)
    (declares : added ≠ [] → ∃ stmt ∈ olds, stmt.isUse = false) :
    Fits page.source (Clear page.source (stmts.flatMap (page.zones drops)))
      (olds.flatMap (page.zones drops))
      (page.diffStmts container none olds [] (front ++ added ++ back)) := by
  have inside : ∀ stmt ∈ olds, stmt ∈ stmts := fun stmt member => part.subset member
  have revised : Revised page drops (Clear page.source (stmts.flatMap (page.zones drops))) olds
      (front ++ added ++ back) := by
    refine revised_insert formed lined inside kept new fun stmt member inFront span spanned => ?_
    have leads := preamble stmt member inFront
    obtain ⟨span', stands, -, solid | ⟨-, opens⟩⟩ := lined.exists_stands (inside stmt member)
    · obtain rfl : span' = span := Option.some.inj (stands.spanned.symm.trans spanned)
      exact clear_stop formed lined (inside stmt member) (by simp [Stmt.isUse_of_isPreamble leads])
        stands solid
    · rw [opens.notPreamble] at leads
      cases leads
  have anchored : Anchored drops (Clear page.source (stmts.flatMap (page.zones drops))) none olds []
      (front ++ added ++ back) := by
    by_cases empty : added = []
    · refine .inl ⟨rfl, fun stmt member => ?_⟩
      rw [empty, List.append_nil, ← kept] at member
      obtain ⟨old, isOld, rfl⟩ := List.mem_map.1 member
      obtain ⟨span, stands, -⟩ := lined.exists_stands (inside old (List.mem_filter.1 isOld).1)
      simp [Stmt.span?_migrated, stands.spanned]
    · obtain ⟨stmt, member, notUse⟩ := declares empty
      refine .inr ⟨⟨stmt, member, by simp [notUse]⟩, fun other member stays span spanned => ?_⟩
      obtain ⟨span', stands, -⟩ := lined.exists_stands (inside other member)
      obtain rfl : span' = span := Option.some.inj (stands.spanned.symm.trans spanned)
      exact clear_start formed lined (inside other member) stays stands
  have zones : (olds.flatMap fun stmt => stmt.leaves.flatMap (page.zones drops)) =
      olds.flatMap (page.zones drops) := by
    refine List.flatMap_congr fun stmt member => ?_
    obtain ⟨span, stands, -⟩ := lined.exists_stands (inside stmt member)
    rw [Stmt.leaves_of_not_isNamespace stands.plain, List.flatMap_singleton]
  have distinct : olds.Pairwise fun a b => a.span? ≠ b.span? :=
    (lined.pairwise_before.sublist part).imp Stmt.Before.span?_ne
  rw [← zones]
  exact revised.fits_whole container distinct anchored

/-- The body of a namespace whose imports stay fits its zones. -/
theorem fits_bodyMigrated {body : List Stmt} {container : Container} (part : body.Sublist stmts)
    (stay : ∀ stmt ∈ body, (stmt.isUse && drops stmt) = false) :
    Fits page.source (Clear page.source (stmts.flatMap (page.zones drops)))
      (body.flatMap (page.zones drops))
      (page.diffStmts container none body [] (Stmt.bodyMigrated body)) := by
  have kept : (body.filter fun stmt => !(stmt.isUse && drops stmt)) = body :=
    List.filter_eq_self.2 fun stmt member => by simp [stay stmt member]
  change Fits _ _ _ (page.diffStmts container none body []
    ([] ++ Stmt.missingImports _ (body.map Stmt.migrated) ++ body.map Stmt.migrated))
  refine fits_scope formed lined part (by rw [kept]; rfl) ?_ (by simp) ?_
  · intro stmt member
    obtain ⟨decl, -, rfl⟩ := List.mem_map.1 member
    rfl
  · intro missing
    apply Stmt.exists_not_isUse_of_required
    intro required
    exact missing (by simp [Stmt.missingImports, required])

/-- A scope whose imports are written anew fits its zones. -/
theorem fits_resolved {olds news written : List Stmt} {afterPreamble : Bool} {container : Container}
    (part : olds.Sublist stmts) (drop : ∀ stmt ∈ olds, drops stmt)
    (derived : Stmt.MigratedFrom olds news)
    (resolved : Stmt.resolve? (Stmt.requiredNames (olds.flatMap Stmt.classes)) afterPreamble news =
      some written) :
    Fits page.source (Clear page.source (stmts.flatMap (page.zones drops)))
      (olds.flatMap (page.zones drops)) (page.diffStmts container none olds [] written) := by
  have required : Stmt.requiredNames (olds.flatMap Stmt.classes) ≠ [] := by
    intro nothing
    rw [nothing, Stmt.resolve?_nil] at resolved
    cases resolved
  obtain ⟨front, back, split, leads, rfl⟩ := Stmt.exists_of_resolve?_eq_some resolved
  have kept : (olds.filter fun stmt => !(stmt.isUse && drops stmt)).map Stmt.migrated =
      front ++ back := by
    rw [← split, derived, List.filter_map]
    congr 1
    refine List.filter_congr fun stmt member => ?_
    simp [drop stmt member, Stmt.isUse_migrated]
  refine fits_scope formed lined part kept ?_ ?_ fun _ => Stmt.exists_not_isUse_of_required required
  · intro stmt member
    obtain ⟨decl, -, rfl⟩ := List.mem_map.1 member
    rfl
  · intro stmt member inFront
    rw [leads] at inFront
    split at inFront
    · rw [← Stmt.isPreamble_migrated]
      exact List.mem_takeWhile_imp inFront
    · cases inFront

/-- Statements whose imports stay are kept in their migrated form. -/
theorem revised_topMigrated {tops : List Stmt} (part : ∀ stmt ∈ tops, stmt.leaves.Sublist stmts)
    (stay : ∀ stmt ∈ tops, ∀ leaf ∈ stmt.leaves, (leaf.isUse && drops leaf) = false) :
    Revised page drops (Clear page.source (stmts.flatMap (page.zones drops))) tops
      (tops.map Stmt.topMigrated) ∧ ∀ stmt ∈ tops.map Stmt.topMigrated, stmt.span?.isSome := by
  induction tops with
  | nil => exact ⟨.nil, by simp⟩
  | cons stmt tops ih =>
      obtain ⟨rest, quiet⟩ := ih (fun other member => part other (by simp [member]))
        fun other member => stay other (by simp [member])
      have part' := part stmt (by simp)
      have stay' := stay stmt (by simp)
      rw [List.map_cons]
      rcases stmt.nspace_or_plain with ⟨head, body, rfl⟩ | plain
      · refine ⟨.keep rfl rfl rfl ?_ (.inl quiet) rest, ?_⟩
        · exact fits_bodyMigrated formed lined part' stay'
        · simpa [Stmt.topMigrated, Stmt.span?] using quiet
      · rw [Stmt.leaves_of_not_isNamespace plain] at part' stay'
        have member := part'.subset List.mem_cons_self
        have stays := stay' stmt List.mem_cons_self
        obtain ⟨span, stands, -⟩ := lined.exists_stands member
        rw [Stmt.topMigrated_of_not_isNamespace plain]
        refine ⟨revised_keep formed lined member stays (.inl quiet) rest, ?_⟩
        simpa [Stmt.span?_migrated, stands.spanned] using quiet

end Stmt

theorem sublist_leaves {stmt : Stmt} {tops : List Stmt} (member : stmt ∈ tops) :
    stmt.leaves.Sublist (tops.flatMap Stmt.leaves) :=
  List.sublist_flatten_of_mem (List.mem_map_of_mem member)

/-- The zones of the statements of a unit, those of namespaces included. -/
abbrev Page.unitZones (page : Page) (drops : Stmt → Bool) (unit : SourceUnit) : List Span :=
  (unit.stmts.flatMap Stmt.leaves).flatMap (page.zones drops)

section Unit

variable {page : Page} {root : Node} {unit : SourceUnit} {opening : Bool} {lo hi : Nat}

/-- The edits of a unit fit its zones if it is revised without additions. -/
theorem fits_of_revised {drops : Stmt → Bool} {clear : Nat → Prop} {news : List Stmt}
    (distinct : unit.stmts.Pairwise fun a b => a.span? ≠ b.span?) (container : Container)
    (revised : Revised page drops clear unit.stmts news)
    (quiet : ∀ stmt ∈ news, stmt.span?.isSome) :
    Fits page.source clear (page.unitZones drops unit)
      (page.diffStmts container none unit.stmts [] news) := by
  have fits := revised.fits_whole container distinct (.inl ⟨rfl, quiet⟩)
  rwa [← List.flatMap_assoc] at fits

variable (formed : root.WellFormed page.source)
  (lined : Stmt.Lined page.source root opening lo hi (unit.stmts.flatMap Stmt.leaves))
  (distinct : unit.stmts.Pairwise fun a b => a.span? ≠ b.span?) (container : Container)

include formed lined distinct

/-- The edits of a unit whose imports all stay fit its zones. -/
theorem fits_map_topMigrated :
    Fits page.source (Clear page.source (page.unitZones (fun _ => false) unit))
      (page.unitZones (fun _ => false) unit)
      (page.diffStmts container none unit.stmts [] (unit.stmts.map Stmt.topMigrated)) := by
  have stay : ∀ stmt ∈ unit.stmts, ∀ leaf ∈ stmt.leaves,
      (leaf.isUse && (fun _ => false) leaf) = false := by simp
  obtain ⟨revised, quiet⟩ :=
    revised_topMigrated formed lined (fun stmt member => sublist_leaves member) stay
  exact fits_of_revised distinct container revised quiet

/-- The edits of a unit fit its zones if the imports of the first namespace are dropped and all
others stay. -/
theorem fits_nspace {drops : Stmt → Bool} {before body after written : List Stmt}
    {head : NamespaceHead} (split : unit.stmts = before ++ .nspace head body :: after)
    (resolved : Stmt.resolve? (Stmt.requiredNames (body.flatMap Stmt.classes)) false
      (Stmt.bodyMigrated body) = some written)
    (drop : ∀ stmt ∈ body, drops stmt)
    (stay : ∀ stmt ∈ before ++ after, ∀ leaf ∈ stmt.leaves, drops leaf = false) :
    Fits page.source (Clear page.source (page.unitZones drops unit)) (page.unitZones drops unit)
      (page.diffStmts container none unit.stmts [] (before.map Stmt.topMigrated ++
        .nspace head written :: after.map Stmt.topMigrated)) := by
  have part : ∀ stmt ∈ before ++ .nspace head body :: after,
      stmt.leaves.Sublist (unit.stmts.flatMap Stmt.leaves) := by
    rw [← split]
    exact fun stmt member => sublist_leaves member
  have around : ∀ tops ⊆ before ++ after,
      Revised page drops (Clear page.source (page.unitZones drops unit)) tops
        (tops.map Stmt.topMigrated) ∧ ∀ stmt ∈ tops.map Stmt.topMigrated, stmt.span?.isSome := by
    intro tops inside
    refine revised_topMigrated formed lined (fun stmt member => part stmt ?_)
      fun stmt member leaf isLeaf => ?_
    · rcases List.mem_append.1 (inside member) with here | there
      · simp [here]
      · simp [there]
    · simp [stay stmt (inside member) leaf isLeaf]
  obtain ⟨revisedBefore, quietBefore⟩ := around before (List.subset_append_left _ _)
  obtain ⟨revisedAfter, quietAfter⟩ := around after (List.subset_append_right _ _)
  have fits : Fits page.source (Clear page.source (page.unitZones drops unit))
      ((Stmt.nspace head body).leaves.flatMap (page.zones drops))
      (page.diffStmt (.nspace head body) (.nspace head written)) :=
    fits_resolved formed lined (part (.nspace head body) (by simp)) drop
      (Stmt.migratedFrom_bodyMigrated body) resolved
  have quiet : ∀ stmt ∈ .nspace head written :: after.map Stmt.topMigrated, stmt.span?.isSome := by
    simpa [Stmt.span?] using quietAfter
  have revised := revisedBefore.append
    (.keep rfl rfl rfl fits (.inl quietAfter) revisedAfter) quiet
  rw [← split] at revised
  refine fits_of_revised distinct container revised fun stmt member => ?_
  rcases List.mem_append.1 member with here | there
  · exact quietBefore stmt here
  · exact quiet stmt there

/-- The structural edits of a migrated unit fit the zones of its statements, for some choice of
the imports that are dropped. -/
theorem exists_fits_migrateAndResolve :
    ∃ drops, Fits page.source (Clear page.source (page.unitZones drops unit))
      (page.unitZones drops unit)
      (page.diffStmts container none unit.stmts [] unit.migrateAndResolve.1.stmts) := by
  rcases SourceUnit.namespace_cases unit.stmts with
    others | ⟨before, head, body, after, split, others⟩
  · rw [SourceUnit.migrateAndResolve_of_no_nspace others]
    cases resolved : Stmt.resolve? (Stmt.requiredNames (unit.stmts.flatMap Stmt.classes)) true
        (unit.stmts.map Stmt.migrated) with
    | none =>
        rw [Option.getD_none, ← Stmt.map_topMigrated others]
        exact ⟨_, fits_map_topMigrated formed lined distinct container⟩
    | some written =>
        have plain := Stmt.flatMap_leaves_of_not_isNamespace others
        rw [plain] at lined
        simp only [Page.unitZones, plain]
        exact ⟨fun _ => true, fits_resolved formed lined (.refl _) (by simp) rfl resolved⟩
  · rw [SourceUnit.migrateAndResolve_of_nspace split others, ← Stmt.map_topMigrated others]
    cases resolved : Stmt.resolve? (Stmt.requiredNames (body.flatMap Stmt.classes)) false
        (Stmt.bodyMigrated body) with
    | none =>
        have same : before.map Stmt.topMigrated ++ .nspace head (Stmt.bodyMigrated body) ::
            after.map Stmt.topMigrated = unit.stmts.map Stmt.topMigrated := by
          rw [split, List.map_append, List.map_cons]
          rfl
        rw [Option.getD_none, same]
        exact ⟨_, fits_map_topMigrated formed lined distinct container⟩
    | some written =>
        have apart := lined.pairwise_before.imp Stmt.Before.span?_ne
        rw [split, List.flatMap_append, List.flatMap_cons, List.pairwise_append] at apart
        obtain ⟨-, apartAfter, apartBefore⟩ := apart
        refine ⟨fun stmt => body.any (·.span? == stmt.span?),
          fits_nspace formed lined distinct container split resolved ?_ ?_⟩
        · exact fun stmt member => List.any_eq_true.2 ⟨stmt, member, by simp⟩
        · intro stmt member leaf isLeaf
          refine List.any_eq_false.2 fun inner inBody => ?_
          rw [beq_iff_eq]
          rcases List.mem_append.1 member with here | there
          · exact (apartBefore leaf (List.mem_flatMap.2 ⟨stmt, here, isLeaf⟩) inner
              (List.mem_append_left _ inBody)).symm
          · exact (List.pairwise_append.1 apartAfter).2.2 inner inBody leaf
              (List.mem_flatMap.2 ⟨stmt, there, isLeaf⟩)

end Unit

end Print

end TagLift
