import OrderBench.Http.Request
import OrderBench.Proofs.Results
import Mathlib.Data.List.TakeWhile

/-!
Where the requests for orders go. An id stands in the URL of its cancel as it is, and the path of a URL ends
at a query or a fragment, so the text of an id decides whether the cancel stays below the collection of orders.
-/
namespace OrderBench

namespace Uri

/-- A query or a fragment begins, and the path is over. -/
def endsPath (c : Char) : Bool := c == '?' || c == '#'

def path (u : Uri) : String := String.ofList (u.target.toList.takeWhile (· ≠ '?'))

/-! Texts that go on. -/

section
variable {p : Char → Bool} {cs : List Char}

theorem append_of_stop (h : ∃ c ∈ cs, p c = false) (more : List Char) :
    (cs ++ more).takeWhile p = cs.takeWhile p ∧ (cs ++ more).dropWhile p = cs.dropWhile p ++ more := by
  induction cs with
  | nil => simp at h
  | cons c cs ih =>
      cases hc : p c with
      | false => simp [hc]
      | true =>
          obtain ⟨d, hd, hpd⟩ := h
          obtain rfl | hd := List.mem_cons.mp hd
          · rw [hc] at hpd
            cases hpd
          · have := ih ⟨d, hd, hpd⟩
            simp [hc, this]

theorem all_takeWhile_of_append {q : Char → Bool} {more : List Char} (h : ((cs ++ more).takeWhile p).all q = true) :
    (cs.takeWhile p).all q = true := by
  rw [List.takeWhile_append] at h
  split at h
  · next hlen =>
    rw [List.all_append, Bool.and_eq_true] at h
    rw [(List.takeWhile_prefix p).eq_of_length hlen]
    exact h.1
  · exact h

theorem drop_takeWhile (p : Char → Bool) (cs : List Char) : cs.drop (cs.takeWhile p).length = cs.dropWhile p := by
  calc cs.drop (cs.takeWhile p).length
      = (cs.takeWhile p ++ cs.dropWhile p).drop (cs.takeWhile p).length := by rw [List.takeWhile_append_dropWhile]
    _ = cs.dropWhile p := List.drop_left

end

/-! Paths. -/

def frontPath (cs : List Char) : List Char :=
  if (cs.takeWhile (!endsPath ·)).isEmpty then ['/'] else cs.takeWhile (!endsPath ·)

theorem frontPath_of_ended {cs : List Char} (h : cs.any endsPath = true) (more : List Char) :
    frontPath (cs ++ more) = frontPath cs := by
  have hstop : ∃ c ∈ cs, (!endsPath c) = false := by simpa using h
  rw [frontPath, (append_of_stop hstop more).1]
  rfl

theorem frontPath_of_open {cs : List Char} (hne : cs ≠ []) (h : cs.any endsPath = false) (more : List Char) :
    frontPath (cs ++ more) = frontPath cs ++ more.takeWhile (!endsPath ·) := by
  have hall : ∀ c ∈ cs, (!endsPath c) = true := by simpa using h
  have htake : cs.takeWhile (!endsPath ·) = cs := List.takeWhile_eq_self_iff.mpr hall
  simp [frontPath, List.takeWhile_append_of_pos hall, htake, hne]

theorem readTarget_eq (cs : List Char) : readTarget cs =
    if !(cs.takeWhile (!endsPath ·)).all isPathChar then .error .invalidCharacter
    else match cs.dropWhile (!endsPath ·) with
      | '?' :: rest =>
        if (rest.takeWhile (· ≠ '#')).all isQueryChar then .ok (frontPath cs ++ '?' :: rest.takeWhile (· ≠ '#'))
        else .error .invalidCharacter
      | _ => .ok (frontPath cs) := by
  have hp : (fun c => decide (c ≠ '?') && decide (c ≠ '#')) = fun c => !endsPath c := by
    funext c
    simp [endsPath, beq_eq_decide]
  rw [readTarget, hp]
  simp only [drop_takeWhile]
  rfl

theorem readTarget_path {cs target : List Char} (h : readTarget cs = .ok target) :
    target.takeWhile (· ≠ '?') = frontPath cs := by
  have hfront : ∀ c ∈ frontPath cs, decide (c ≠ '?') = true := by
    intro c hc
    rw [frontPath] at hc
    split at hc
    · cases List.mem_singleton.mp hc
      rfl
    · have := List.mem_takeWhile_imp hc
      simp only [endsPath, Bool.not_eq_true', Bool.or_eq_false_iff, beq_eq_false_iff_ne] at this
      exact decide_eq_true this.1
  rw [readTarget_eq] at h
  split at h
  · cases h
  · split at h
    · split at h
      · cases h
        rw [List.takeWhile_append_of_pos hfront, List.takeWhile_cons_of_neg (by decide), List.append_nil]
      · cases h
    · cases h
      exact List.takeWhile_eq_self_iff.mpr hfront

theorem readTarget_of_append {cs more target : List Char} (h : readTarget (cs ++ more) = .ok target) :
    ∃ front, readTarget cs = .ok front := by
  rw [readTarget_eq] at h
  simp only [readTarget_eq cs]
  split at h
  · cases h
  · next hall =>
    have hpath : (cs.takeWhile (!endsPath ·)).all isPathChar = true :=
      all_takeWhile_of_append (by simpa using hall)
    rw [hpath]
    by_cases hstop : ∃ c ∈ cs, (!endsPath c) = false
    · rw [(append_of_stop hstop more).2] at h
      split
      · next hf => cases hf
      · split
        · next rest hdrop =>
          rw [hdrop] at h
          simp only [List.cons_append] at h
          split at h
          · next hquery =>
            rw [if_pos (all_takeWhile_of_append hquery)]
            exact ⟨_, rfl⟩
          · cases h
        · exact ⟨_, rfl⟩
    · have hdrop : cs.dropWhile (!endsPath ·) = [] := by
        rw [List.dropWhile_eq_nil_iff]
        simpa using hstop
      rw [hdrop]
      exact ⟨_, rfl⟩

/-! Origins. -/

/-- The scheme and authority in front of a path, and what follows. -/
def splitOrigin (cs : List Char) : Except UriFault (Option (String × String) × List Char) :=
  if cs.head? = some '/' then .ok (none, cs) else do
    let (scheme, rest) ← splitScheme cs
    let (authority, rest) ← splitAuthority rest
    match scheme with
    | none => .error .invalidFormat
    | some scheme =>
      if authority.isEmpty then .error .invalidFormat
      pure (some (String.ofList scheme, String.ofList authority), rest)

theorem splitAuthority_rest {cs authority rest : List Char} (h : splitAuthority cs = .ok (authority, rest)) :
    authority = cs.takeWhile (!endsAuthority ·) ∧ rest = cs.dropWhile (!endsAuthority ·) := by
  obtain ⟨scan, -, h⟩ := bind_eq_ok_iff.mp h
  split at h
  · cases h
    exact ⟨rfl, rfl⟩
  · cases h

theorem dropWhile_ne_nil {cs : List Char} (h : '/' ∈ cs) : cs.dropWhile (!endsAuthority ·) ≠ [] := by
  rw [ne_eq, List.dropWhile_eq_nil_iff]
  intro hall
  exact absurd (hall '/' h) (by decide)

theorem splitAuthority_append {cs : List Char} (h : '/' ∈ cs) (more : List Char) :
    splitAuthority (cs ++ more) = (splitAuthority cs).map fun (authority, rest) => (authority, rest ++ more) := by
  have hstop := append_of_stop (p := (!endsAuthority ·)) ⟨'/', h, rfl⟩ more
  simp only [splitAuthority, hstop.1, hstop.2]
  cases (cs.takeWhile (!endsAuthority ·)).foldlM AuthorityScan.next {} with
  | error fault => rfl
  | ok scan =>
      simp only [bind, Except.bind]
      split <;> rfl

theorem splitScheme_append {cs : List Char} (h : 3 ≤ (cs.dropWhile isSchemeChar).length) (more : List Char) :
    splitScheme (cs ++ more) = (splitScheme cs).map fun (scheme, rest) => (scheme, rest ++ more) := by
  have hstop : ∃ c ∈ cs, isSchemeChar c = false := by
    by_contra hall
    have hnil : cs.dropWhile isSchemeChar = [] := by
      rw [List.dropWhile_eq_nil_iff]
      simpa using hall
    simp [hnil] at h
  have happend := append_of_stop hstop more
  simp only [splitScheme, happend.1, happend.2]
  match hdrop : cs.dropWhile isSchemeChar, h with
  | x :: y :: z :: rest, _ =>
      simp only [List.cons_append]
      split
      · next heq =>
        cases heq
        simp only
        split <;> rfl
      · next hne =>
        split
        · next heq =>
          cases heq
          exact absurd rfl (hne _)
        · rfl

/-! Origins in front of the path of the collection of orders. -/

section
variable {cs : List Char} (h : "/api/orders".toList <:+ cs)
include h

theorem suffix_dropWhile : "/api/orders".toList <:+ cs.dropWhile isSchemeChar := by
  obtain ⟨base, rfl⟩ := h
  rw [List.dropWhile_append]
  split
  · exact List.suffix_refl _
  · exact List.suffix_append _ _

theorem slash_mem : '/' ∈ cs := h.subset (by decide)

theorem splitScheme_rest {scheme : Option (List Char)} {rest : List Char}
    (hs : splitScheme cs = .ok (scheme, rest)) :
    '/' ∈ rest ∧ ∃ front, cs = front ++ rest ∧ front.any endsPath = false := by
  have hdrop := suffix_dropWhile h
  have hcs := List.takeWhile_append_dropWhile (p := isSchemeChar) (l := cs)
  have hscheme : (cs.takeWhile isSchemeChar).any endsPath = false := by
    rw [List.any_eq_false]
    intro c hc hends
    have hchar := List.mem_takeWhile_imp hc
    simp only [endsPath, Bool.or_eq_true, beq_iff_eq] at hends
    obtain rfl | rfl := hends <;> cases hchar
  rw [splitScheme] at hs
  split at hs
  · next heq =>
    split at hs
    · cases hs
    · cases hs
      rw [heq] at hdrop hcs
      refine ⟨?_, cs.takeWhile isSchemeChar ++ [':', '/', '/'], by simp [hcs], ?_⟩
      · -- what follows is long enough to end as the text does
        have hlen := hdrop.length_le
        have hend : "/orders".toList <:+ rest := by
          refine List.suffix_of_suffix_length_le ((by decide : "/orders".toList <:+ "/api/orders".toList).trans hdrop)
            ⟨[':', '/', '/'], rfl⟩ ?_
          simp only [List.length_cons] at hlen
          have : "/orders".toList.length = 7 := rfl
          have : "/api/orders".toList.length = 11 := rfl
          omega
        exact hend.subset (by decide : '/' ∈ "/orders".toList)
      · rw [List.any_append, hscheme]
        rfl
  · cases hs
    exact ⟨slash_mem h, [], rfl, rfl⟩

theorem splitOrigin_rest {origin : Option (String × String)} {rest : List Char}
    (ho : splitOrigin cs = .ok (origin, rest)) :
    rest ≠ [] ∧ ∃ front, cs = front ++ rest ∧ front.any endsPath = false := by
  rw [splitOrigin] at ho
  split at ho
  · cases ho
    exact ⟨List.ne_nil_of_mem (slash_mem h), [], rfl, rfl⟩
  · obtain ⟨⟨scheme, after⟩, hs, ho⟩ := bind_eq_ok_iff.mp ho
    obtain ⟨⟨authority, last⟩, ha, ho⟩ := bind_eq_ok_iff.mp ho
    obtain ⟨hslash, front, rfl, hfront⟩ := splitScheme_rest h hs
    obtain ⟨rfl, rfl⟩ := splitAuthority_rest ha
    have hrest : rest = after.dropWhile (!endsAuthority ·) := by
      cases scheme with
      | none => cases ho
      | some scheme =>
          dsimp only at ho
          split at ho
          · cases ho
          · cases ho
            rfl
    refine ⟨hrest ▸ dropWhile_ne_nil hslash, front ++ after.takeWhile (!endsAuthority ·), ?_, ?_⟩
    · rw [hrest, List.append_assoc, List.takeWhile_append_dropWhile]
    · rw [List.any_append, hfront, Bool.false_or, List.any_eq_false]
      intro c hc
      have := List.mem_takeWhile_imp hc
      simp only [endsAuthority, Bool.not_eq_true', Bool.or_eq_false_iff] at this
      simp [endsPath, this]

theorem splitOrigin_append (more : List Char) :
    splitOrigin (cs ++ more) = (splitOrigin cs).map fun (origin, rest) => (origin, rest ++ more) := by
  have hhead : (cs ++ more).head? = cs.head? := by
    rw [List.head?_append, List.head?_eq_some_head (List.ne_nil_of_mem (slash_mem h)), Option.some_or]
  have hlen : 3 ≤ (cs.dropWhile isSchemeChar).length :=
    (by decide : 3 ≤ "/api/orders".toList.length).trans (suffix_dropWhile h).length_le
  rw [splitOrigin, splitOrigin, hhead, splitScheme_append hlen]
  split
  · rfl
  · cases hs : splitScheme cs with
    | error fault => rfl
    | ok split =>
        obtain ⟨scheme, after⟩ := split
        obtain ⟨hslash, -⟩ := splitScheme_rest h hs
        simp only [Except.map, bind, Except.bind, splitAuthority_append hslash]
        cases splitAuthority after with
        | error fault => rfl
        | ok split =>
            obtain ⟨authority, last⟩ := split
            cases scheme with
            | none => rfl
            | some scheme =>
                simp only
                split <;> rfl

end

theorem splitScheme_none {cs after : List Char} (h : splitScheme cs = .ok (none, after)) : after = cs := by
  rw [splitScheme] at h
  split at h
  · split at h <;> cases h
  · cases h
    rfl

theorem parse_eq {text : String} (h : '/' ∈ text.toList) : parse text =
    if maxLength < text.utf8ByteSize then .error .tooLong
    else (splitOrigin text.toList).bind fun (origin, rest) =>
      (readTarget rest).map fun target => ⟨origin, String.ofList target⟩ := by
  unfold parse splitOrigin
  by_cases hsize : maxLength < text.utf8ByteSize
  · simp [hsize, bind, Except.bind]
  · simp only [hsize, if_false, bind, Except.bind, pure, Except.pure]
    by_cases hhead : text.toList.head? = some '/'
    · simp only [hhead, if_true]
      cases readTarget text.toList <;> rfl
    · simp only [hhead, if_false]
      cases hs : splitScheme text.toList with
      | error fault => rfl
      | ok split =>
          obtain ⟨scheme, after⟩ := split
          cases ha : splitAuthority after with
          | error fault => simp [ha]
          | ok split =>
              obtain ⟨authority, rest⟩ := split
              cases scheme with
              | none =>
                  have hrest : rest.isEmpty = false := by
                    rw [(splitAuthority_rest ha).2, splitScheme_none hs, List.isEmpty_eq_false_iff]
                    exact dropWhile_ne_nil h
                  simp [ha, hrest]
              | some scheme =>
                  simp only [ha]
                  split
                  · rfl
                  · cases ht : readTarget rest <;> simp [ht, Except.map]

theorem parse_ok {text : String} (h : '/' ∈ text.toList) {u : Uri} :
    parse text = .ok u ↔ text.utf8ByteSize ≤ maxLength ∧ ∃ rest target,
      splitOrigin text.toList = .ok (u.origin, rest) ∧ readTarget rest = .ok target ∧
        u.target = String.ofList target := by
  rw [parse_eq h]
  constructor
  · intro hu
    split at hu
    · cases hu
    · next hsize =>
      obtain ⟨⟨origin, rest⟩, ho, hu⟩ := bind_eq_ok_iff.mp hu
      cases ht : readTarget rest with
      | error fault => simp [ht, Except.map] at hu
      | ok target =>
          simp only [ht, Except.map, Except.ok.injEq] at hu
          subst hu
          exact ⟨Nat.le_of_not_lt hsize, rest, target, ho, ht, rfl⟩
  · rintro ⟨hsize, rest, target, ho, ht, hu⟩
    simp only [Nat.not_lt_of_le hsize, if_false, ho, ht, Except.bind, Except.map, ← hu]

/-- A URL that goes on has the same origin; its path goes on with it, unless it was over before. -/
theorem parse_append {front more : String} {u : Uri} (h : "/api/orders".toList <:+ front.toList)
    (hu : parse (front ++ more) = .ok u) : ∃ v, parse front = .ok v ∧ u.origin = v.origin ∧
      (front.toList.any endsPath = true → u.path = v.path) ∧
      (front.toList.any endsPath = false →
        u.path = v.path ++ String.ofList (more.toList.takeWhile (!endsPath ·))) := by
  have hslash := slash_mem h
  rw [parse_ok (by simp [hslash])] at hu
  obtain ⟨hsize, rest, target, horigin, htarget, hu⟩ := hu
  rw [String.toList_append, splitOrigin_append h] at horigin
  cases ho : splitOrigin front.toList with
  | error fault => simp [ho, Except.map] at horigin
  | ok split =>
      obtain ⟨origin, start⟩ := split
      simp only [ho, Except.map, Except.ok.injEq, Prod.mk.injEq] at horigin
      obtain ⟨rfl, rfl⟩ := horigin
      obtain ⟨hne, before, hfront, hbefore⟩ := splitOrigin_rest h ho
      obtain ⟨shorter, hshorter⟩ := readTarget_of_append htarget
      have hv : parse front = .ok ⟨u.origin, String.ofList shorter⟩ := by
        rw [parse_ok hslash]
        refine ⟨?_, start, shorter, ho, hshorter, rfl⟩
        rw [String.utf8ByteSize_append] at hsize
        omega
      have hpath : u.path = String.ofList (frontPath (start ++ more.toList)) := by
        rw [path, hu, String.toList_ofList, readTarget_path htarget]
      have hshort : path ⟨u.origin, String.ofList shorter⟩ = String.ofList (frontPath start) := by
        rw [path, String.toList_ofList, readTarget_path hshorter]
      have hany : front.toList.any endsPath = start.any endsPath := by
        rw [hfront, List.any_append, hbefore, Bool.false_or]
      refine ⟨_, hv, rfl, ?_, ?_⟩
      · intro hended
        rw [hpath, hshort, frontPath_of_ended (hany ▸ hended)]
      · intro hopen
        rw [hpath, hshort, frontPath_of_open hne (hany ▸ hopen), String.ofList_append]

end Uri

namespace Endpoint

variable {e : Endpoint} {call : Call} {r : HttpRequest}

/-- The request deletes at the path of the collection of orders, with or without a slash at its end. -/
def DeletesCollection (e : Endpoint) (r : HttpRequest) : Prop :=
  r.method = "DELETE" ∧ ∃ u, Uri.parse e.ordersUrl = .ok u ∧ r.uri.origin = u.origin ∧
    (r.uri.path = u.path ∨ r.uri.path = u.path ++ "/")

/-- The path of the URL of an order is over before its id, or with the first character of it. -/
def LosesId (e : Endpoint) (id : String) : Prop :=
  e.baseUrl.toList.any Uri.endsPath ∨ id.toList.head?.any Uri.endsPath

instance (e : Endpoint) (id : String) : Decidable (e.LosesId id) := inferInstanceAs (Decidable (_ ∨ _))

theorem request_ok (h : e.request call = .ok r) : Uri.parse (e.url call) = .ok r.uri ∧
    r.method = match call with | .place _ => "POST" | .cancel _ => "DELETE" := by
  obtain ⟨uri, hu, h⟩ := bind_eq_ok_iff.mp h
  cases call <;> cases h <;> exact ⟨hu, rfl⟩

theorem ordersUrl_ends (e : Endpoint) : e.ordersUrl.toList.any Uri.endsPath = e.baseUrl.toList.any Uri.endsPath := by
  have hend : "/api/orders".toList.any Uri.endsPath = false := rfl
  rw [ordersUrl, String.toList_append, List.any_append, hend, Bool.or_false]

/-- The collection itself is deleted just by a cancel with no id, or with one that its URL loses. -/
theorem deletesCollection_iff (h : e.request call = .ok r) :
    e.DeletesCollection r ↔ ∃ id, call = .cancel id ∧ (id = "" ∨ e.LosesId id) := by
  obtain ⟨huri, hmethod⟩ := request_ok h
  cases call with
  | place order =>
      rw [DeletesCollection, hmethod]
      simp
  | cancel id =>
      have hsuffix : "/api/orders".toList <:+ e.ordersUrl.toList := by
        rw [ordersUrl, String.toList_append]
        exact List.suffix_append _ _
      rw [url, String.append_assoc] at huri
      obtain ⟨u, hu, horigin, hended, hopen⟩ := Uri.parse_append hsuffix huri
      have hcollection : e.DeletesCollection r ↔ r.uri.path = u.path ∨ r.uri.path = u.path ++ "/" := by
        simp [DeletesCollection, hmethod, hu, horigin]
      simp only [hcollection, Call.cancel.injEq, exists_eq_left']
      rw [ordersUrl_ends] at hended hopen
      cases hbase : e.baseUrl.toList.any Uri.endsPath with
      | true => simp [hended hbase, LosesId, hbase]
      | false =>
          have hlonger : r.uri.path.toList = u.path.toList ++ '/' :: id.toList.takeWhile (!Uri.endsPath ·) := by
            rw [hopen hbase, String.toList_append, String.toList_ofList, String.toList_append]
            rfl
          have hbelow : r.uri.path ≠ u.path := by
            rw [ne_eq, ← String.toList_inj, hlonger]
            simp
          have hslash : r.uri.path = u.path ++ "/" ↔ id.toList.takeWhile (!Uri.endsPath ·) = [] := by
            rw [← String.toList_inj, hlonger]
            simp
          rw [or_iff_right hbelow, hslash, ← String.toList_eq_nil_iff, LosesId, hbase]
          cases id.toList <;> simp [List.takeWhile_cons]

end Endpoint

end OrderBench
