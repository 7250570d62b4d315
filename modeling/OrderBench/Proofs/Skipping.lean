import OrderBench.Json.Value
import OrderBench.Proofs.Tokens
import Mathlib.Tactic.Choose

/-!
Values that nobody looks at. The tokens of any value of the grammar, however deep, are skipped as a whole, and
nothing after them is.
-/
namespace OrderBench

open Json Token

/-! Texts and their tokens, put together. -/

/-- The text has these tokens before whatever cannot extend it. -/
def Scans (cs : List Char) (ts : List Token) : Prop :=
  ∀ rest, Delimited rest → tokens (cs ++ rest) = ts ++ tokens rest

theorem Scans.padded {p : Padded} {ts : List Token} (h : Scans p.core ts) : Scans p.text ts := by
  intro rest hr
  rw [Padded.text, List.append_assoc, List.append_assoc, tokens_blanks p.before_blanks,
    h _ (hr.blanks p.after_blanks), tokens_blanks p.after_blanks]

section
variable {α : Type} {text : α → List Char} {found : α → List Token}

theorem Delimited.tail {rest : List Char} (hr : Delimited rest) (items : List α) :
    Delimited ((items.map text).flatMap (',' :: ·) ++ rest) := by
  cases items with
  | nil => exact hr
  | cons => exact delimited_mark (t := .comma) (by decide) _

theorem Scans.tail {items : List α} (h : ∀ a ∈ items, Scans (text a) (found a)) :
    Scans ((items.map text).flatMap (',' :: ·)) ((items.map found).flatMap (.comma :: ·)) := by
  induction items with
  | nil => exact fun rest _ => rfl
  | cons a items ih =>
      intro rest hr
      have ih := ih fun b hb => h b (List.mem_cons_of_mem _ hb)
      simp only [List.map_cons, List.flatMap_cons, List.cons_append, List.append_assoc]
      rw [tokens_mark (t := .comma) (by decide), h a (List.mem_cons_self ..) _ (hr.tail items), ih rest hr]

theorem Scans.separated {items : List α} (h : ∀ a ∈ items, Scans (text a) (found a)) :
    Scans (separated ',' (items.map text)) (separated .comma (items.map found)) := by
  cases items with
  | nil => exact fun rest _ => rfl
  | cons a items =>
      intro rest hr
      simp only [List.map_cons, Json.separated, List.append_assoc]
      rw [h a (List.mem_cons_self ..) _ (hr.tail items),
        Scans.tail (fun b hb => h b (List.mem_cons_of_mem _ hb)) rest hr]

end

theorem Scans.enclosed {first last : Char} {opening closing : Token} {blanks body : List Char} {ts : List Token}
    (h : Scans body ts) (hf : (first, opening) ∈ marks) (hl : (last, closing) ∈ marks) (hb : Blanks blanks) :
    Scans (first :: (blanks ++ (body ++ [last]))) (opening :: (ts ++ [closing])) := by
  intro rest _
  simp only [List.cons_append, List.append_assoc, List.nil_append]
  rw [tokens_mark hf, tokens_blanks hb, h _ (delimited_mark hl rest), tokens_mark hl]

theorem Scans.member {m : Member} {name value : List Token} (hn : Scans m.name.core name)
    (hv : Scans m.value.core value) : Scans m.text (name ++ .colon :: value) := by
  intro rest hr
  simp only [Member.text, List.cons_append, List.append_assoc]
  rw [hn.padded _ (delimited_mark (t := .colon) (by decide) _), tokens_mark (t := .colon) (by decide), hv.padded _ hr]

/-! Skipping. -/

namespace Json

/-- A token as a reader sees it that does not look at values. -/
def erased : Token → Token
  | .number none => .number (some (.integer 0))
  | .string none => .string (some "")
  | t => t

def Unfinished : Reader → Prop
  | .after _ [] => False
  | _ => True

theorem skip_cons (r : Reader) (hr : Unfinished r) (t : Token) (ts : List Token) :
    skip r (t :: ts) = skip (r.next none (erased t)) ts := by
  rw [skip.eq_def]
  split
  · exact hr.elim
  · next heq => cases heq
  · next heq => cases heq; rfl
  · next heq => cases heq; rfl
  · next hn hs _ heq =>
    cases heq
    cases t with
    | number n =>
        cases n with
        | none => exact (hn rfl).elim
        | some n => rfl
    | string s =>
        cases s with
        | none => exact (hs rfl).elim
        | some s => rfl
    | _ => rfl

/-- The reader is about to read a value, within these frames. -/
inductive Begins : Reader → List Frame → Prop
  | value (outer : List Frame) : Begins (.value outer) outer
  | firstItem (outer : List Frame) : Begins (.firstItem outer) (.items [] :: outer)

/-- The tokens are read as one value. -/
def Skipped (vs : List Token) : Prop :=
  ∀ (r : Reader) (outer : List Frame), Begins r outer → ∀ ts, ∃ v, skip r (vs ++ ts) = skip (.after v outer) ts

theorem Begins.skip_cons {r : Reader} {outer : List Frame} (h : Begins r outer) {t : Token}
    (ht : erased t ≠ .endArray) (ts : List Token) : skip r (t :: ts) = skip (beginValue none outer (erased t)) ts := by
  cases h with
  | value => exact Json.skip_cons (.value outer) trivial t ts
  | firstItem outer =>
      rw [Json.skip_cons (.firstItem outer) trivial, Reader.next]
      exact ht

theorem skipped_scalar {t : Token} (h : ∀ outer, ∃ v, beginValue none outer (erased t) = .after v outer) :
    Skipped [t] := by
  intro r outer hr ts
  obtain ⟨v, hv⟩ := h outer
  refine ⟨v, ?_⟩
  rw [List.singleton_append, hr.skip_cons ?_, hv]
  intro he
  rw [he] at hv
  cases hv

theorem skip_items {vss : List (List Token)} (h : ∀ vs ∈ vss, Skipped vs) (v : Json) (read : List Json)
    (outer : List Frame) (ts : List Token) :
    ∃ w, skip (.after v (.items read :: outer)) (vss.flatMap (.comma :: ·) ++ .endArray :: ts) =
      skip (.after w outer) ts := by
  induction vss generalizing v read with
  | nil => exact ⟨_, skip_cons (.after v (.items read :: outer)) trivial _ _⟩
  | cons vs vss ih =>
      simp only [List.flatMap_cons, List.cons_append, List.append_assoc]
      obtain ⟨w, hw⟩ := h vs (List.mem_cons_self ..) _ _ (.value (.items (v :: read) :: outer))
        (vss.flatMap (.comma :: ·) ++ .endArray :: ts)
      obtain ⟨u, hu⟩ := ih (fun ws hm => h ws (List.mem_cons_of_mem _ hm)) w (v :: read)
      refine ⟨u, ?_⟩
      rw [skip_cons (.after v (.items read :: outer)) trivial, ← hu, ← hw]
      rfl

theorem skipped_array {vss : List (List Token)} (h : ∀ vs ∈ vss, Skipped vs) :
    Skipped (.beginArray :: (separated .comma vss ++ [.endArray])) := by
  intro r outer hr ts
  rw [List.cons_append, hr.skip_cons (by decide), List.append_assoc]
  cases vss with
  | nil => exact ⟨_, skip_cons (.firstItem outer) trivial _ _⟩
  | cons vs vss =>
      obtain ⟨v, hv⟩ := h vs (List.mem_cons_self ..) _ _ (.firstItem outer)
        (vss.flatMap (.comma :: ·) ++ .endArray :: ts)
      obtain ⟨w, hw⟩ := skip_items (fun ws hm => h ws (List.mem_cons_of_mem _ hm)) v [] outer ts
      refine ⟨w, ?_⟩
      rw [← hw, ← hv, separated, List.append_assoc]
      rfl

/-- The tokens are read as the name and the value of a member. -/
def SkippedMember (ms : List Token) : Prop := ∃ name vs, ms = .string name :: .colon :: vs ∧ Skipped vs

/-- The reader is about to read a member, after these of the same object. -/
inductive BeginsMember : Reader → List (String × Json) → List Frame → Prop
  | firstName (outer : List Frame) : BeginsMember (.firstName outer) [] outer
  | name (read : List (String × Json)) (outer : List Frame) : BeginsMember (.name read outer) read outer

theorem SkippedMember.skip {ms : List Token} (h : SkippedMember ms) {r : Reader} {read : List (String × Json)}
    {outer : List Frame} (hr : BeginsMember r read outer) (ts : List Token) :
    ∃ v key, Json.skip r (ms ++ ts) = Json.skip (.after v (.member read key :: outer)) ts := by
  obtain ⟨name, vs, rfl, hv⟩ := h
  have hname : ∃ key, Json.skip r (.string name :: (.colon :: vs ++ ts)) =
      Json.skip (.colon read key outer) (.colon :: vs ++ ts) := by
    cases hr with
    | firstName => cases name <;> exact ⟨_, skip_cons (.firstName outer) trivial _ _⟩
    | name => cases name <;> exact ⟨_, skip_cons (.name read outer) trivial _ _⟩
  obtain ⟨key, hkey⟩ := hname
  obtain ⟨v, hv⟩ := hv _ _ (.value (.member read key :: outer)) ts
  refine ⟨v, key, ?_⟩
  rw [← hv]
  refine hkey.trans ?_
  exact skip_cons (.colon read key outer) trivial _ _

theorem skip_members {mss : List (List Token)} (h : ∀ ms ∈ mss, SkippedMember ms) (v : Json) (key : String)
    (read : List (String × Json)) (outer : List Frame) (ts : List Token) :
    ∃ w, skip (.after v (.member read key :: outer)) (mss.flatMap (.comma :: ·) ++ .endObject :: ts) =
      skip (.after w outer) ts := by
  induction mss generalizing v key read with
  | nil => exact ⟨_, skip_cons (.after v (.member read key :: outer)) trivial _ _⟩
  | cons ms mss ih =>
      simp only [List.flatMap_cons, List.cons_append, List.append_assoc]
      obtain ⟨w, other, hw⟩ := (h ms (List.mem_cons_self ..)).skip (.name ((key, v) :: read) outer)
        (mss.flatMap (.comma :: ·) ++ .endObject :: ts)
      obtain ⟨u, hu⟩ := ih (fun ns hm => h ns (List.mem_cons_of_mem _ hm)) w other ((key, v) :: read)
      refine ⟨u, ?_⟩
      rw [skip_cons (.after v (.member read key :: outer)) trivial, ← hu, ← hw]
      rfl

theorem skipped_object {mss : List (List Token)} (h : ∀ ms ∈ mss, SkippedMember ms) :
    Skipped (.beginObject :: (separated .comma mss ++ [.endObject])) := by
  intro r outer hr ts
  rw [List.cons_append, hr.skip_cons (by decide), List.append_assoc]
  cases mss with
  | nil => exact ⟨_, skip_cons (.firstName outer) trivial _ _⟩
  | cons ms mss =>
      obtain ⟨v, key, hv⟩ := (h ms (List.mem_cons_self ..)).skip (.firstName outer)
        (mss.flatMap (.comma :: ·) ++ .endObject :: ts)
      obtain ⟨w, hw⟩ := skip_members (fun ns hm => h ns (List.mem_cons_of_mem _ hm)) v key [] outer ts
      refine ⟨w, ?_⟩
      rw [← hw, ← hv, separated, List.append_assoc]
      rfl

end Json

theorem scans_literal {cs : List Char} (h : LiteralText cs) : ∃ o, Scans cs [.string o] := by
  obtain ⟨o, ho⟩ := tokens_literal h
  exact ⟨o, fun rest _ => ho rest⟩

theorem scans_value {cs : List Char} (h : ValueText cs) : ∃ vs, Scans cs vs ∧ Skipped vs := by
  induction h with
  | null => exact ⟨[.null], fun rest _ => tokens_cons rfl _, skipped_scalar fun _ => ⟨_, rfl⟩⟩
  | true => exact ⟨[.boolean true], fun rest _ => tokens_cons rfl _, skipped_scalar fun _ => ⟨_, rfl⟩⟩
  | false => exact ⟨[.boolean false], fun rest _ => tokens_cons rfl _, skipped_scalar fun _ => ⟨_, rfl⟩⟩
  | number h =>
      obtain ⟨o, ho⟩ := tokens_number h
      refine ⟨[.number o], ho, skipped_scalar fun outer => ?_⟩
      cases o <;> exact ⟨_, rfl⟩
  | string h =>
      obtain ⟨o, ho⟩ := scans_literal h
      refine ⟨[.string o], ho, skipped_scalar fun outer => ?_⟩
      cases o <;> exact ⟨_, rfl⟩
  | array hb _ ih =>
      choose! found hfound using ih
      have hscans := Scans.separated fun item hm => (hfound item hm).1.padded
      refine ⟨_, hscans.enclosed (by decide) (by decide) hb, skipped_array ?_⟩
      intro vs hm
      obtain ⟨item, hi, rfl⟩ := List.mem_map.mp hm
      exact (hfound item hi).2
  | object hb hn _ ih =>
      choose! found hfound using ih
      choose! name hname using fun m hm => scans_literal (hn m hm)
      have hscans := Scans.separated fun m hm => (hname m hm).member (hfound m hm).1
      refine ⟨_, hscans.enclosed (by decide) (by decide) hb, skipped_object ?_⟩
      intro ms hm
      obtain ⟨m, hi, rfl⟩ := List.mem_map.mp hm
      exact ⟨name m, found m, rfl, (hfound m hi).2⟩

end OrderBench
