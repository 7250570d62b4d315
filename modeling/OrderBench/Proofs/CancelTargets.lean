import OrderBench.Proofs.OrderUrls

/-!
Which cancels go to the same place. The target of a request is what its URL has before the first `#`, and an id stands
in it as it is, so that two ids share a target just when they are the same up to there.
-/
namespace OrderBench

namespace Uri

/-- A text up to the fragment, which is not sent. -/
def beforeFragment (cs : List Char) : List Char := cs.takeWhile (· ≠ '#')

theorem beforeFragment_append (cs more : List Char) : beforeFragment (cs ++ more) =
    if '#' ∈ cs then beforeFragment cs else cs ++ beforeFragment more := by
  unfold beforeFragment
  split
  · next h => exact (append_of_stop ⟨'#', h, rfl⟩ more).1
  · next h =>
    apply List.takeWhile_append_of_pos
    intro c hc
    exact decide_eq_true fun he : c = '#' => h (he ▸ hc)

theorem beforeFragment_eq_self {cs : List Char} (h : '#' ∉ cs) : beforeFragment cs = cs := by
  have happend := beforeFragment_append cs []
  rw [if_neg h, List.append_nil] at happend
  exact happend.trans (List.append_nil cs)

/-- What stands in a target for a path that is empty. -/
def lead (cs : List Char) : List Char := if cs.head?.all endsPath then ['/'] else []

theorem frontPath_eq (cs : List Char) : frontPath cs = lead cs ++ cs.takeWhile (!endsPath ·) := by
  cases cs with
  | nil => rfl
  | cons c cs => cases h : endsPath c <;> simp [frontPath, lead, h]

/-- A target is the text up to its fragment, with a path. -/
theorem readTarget_sent {cs target : List Char} (h : readTarget cs = .ok target) :
    target = lead cs ++ beforeFragment cs := by
  have hcs := List.takeWhile_append_dropWhile (p := (!endsPath ·)) (l := cs)
  have hfront : '#' ∉ cs.takeWhile (!endsPath ·) := by
    intro hm
    have := List.mem_takeWhile_imp hm
    simp [endsPath] at this
  have hsent : beforeFragment cs = cs.takeWhile (!endsPath ·) ++ beforeFragment (cs.dropWhile (!endsPath ·)) := by
    have happend := beforeFragment_append (cs.takeWhile (!endsPath ·)) (cs.dropWhile (!endsPath ·))
    rwa [hcs, if_neg hfront] at happend
  rw [hsent, ← List.append_assoc, ← frontPath_eq]
  rw [readTarget_eq] at h
  split at h
  · cases h
  · split at h
    · next rest hdrop =>
      split at h
      · cases h
        rw [hdrop]
        rfl
      · cases h
    · next hquery =>
      cases h
      -- without a query the path is over at the fragment or with the text
      have hstop := List.head?_dropWhile_not (!endsPath ·) cs
      cases hdrop : cs.dropWhile (!endsPath ·) with
      | nil => exact (List.append_nil _).symm
      | cons c rest =>
          rw [hdrop] at hstop hquery
          have hc : c = '#' := by
            simp only [List.head?_cons, Bool.not_eq_false', endsPath, Bool.or_eq_true, beq_iff_eq] at hstop
            obtain rfl | hc := hstop
            · exact absurd rfl (hquery rest)
            · exact hc
          rw [hc]
          exact (List.append_nil _).symm

theorem lead_append {cs : List Char} (h : cs ≠ []) (more : List Char) : lead (cs ++ more) = lead cs := by
  obtain ⟨c, rest, rfl⟩ := List.exists_cons_of_ne_nil h
  rfl

/-- The target of a URL that goes on goes on with it, unless a fragment has begun before. -/
theorem parse_append_target {front more : String} {u v : Uri} (h : "/api/orders".toList <:+ front.toList)
    (hu : parse front = .ok u) (hv : parse (front ++ more) = .ok v) : v.origin = u.origin ∧
      v.target.toList =
        if '#' ∈ front.toList then u.target.toList else u.target.toList ++ beforeFragment more.toList := by
  have hslash := slash_mem h
  rw [parse_ok hslash] at hu
  rw [parse_ok (by simp [hslash])] at hv
  obtain ⟨-, start, shorter, horigin, hshorter, hu⟩ := hu
  obtain ⟨-, rest, longer, hlonger, htarget, hv⟩ := hv
  rw [String.toList_append, splitOrigin_append h, horigin] at hlonger
  obtain ⟨ho, rfl⟩ := Prod.mk.inj (Except.ok.inj hlonger)
  obtain ⟨hne, before, hfront, hbefore⟩ := splitOrigin_rest h horigin
  have hnone : '#' ∉ before := fun hm => by simpa [endsPath] using List.any_eq_false.mp hbefore '#' hm
  have hmem : '#' ∈ front.toList ↔ '#' ∈ start := by rw [hfront, List.mem_append, or_iff_right hnone]
  refine ⟨ho.symm, ?_⟩
  rw [hu, hv, String.toList_ofList, String.toList_ofList, readTarget_sent htarget, readTarget_sent hshorter,
    lead_append hne, beforeFragment_append]
  simp only [hmem]
  split
  · rfl
  · next hstart => rw [beforeFragment_eq_self hstart, List.append_assoc]

end Uri

namespace Endpoint

variable {e : Endpoint} {a : String} {r : HttpRequest}

/-- The target of a cancel: that of the collection of orders with a slash and the id up to a fragment, unless a fragment
has begun in the base URL. -/
theorem cancel_target (h : e.request (.cancel a) = .ok r) : ∃ u, Uri.parse e.ordersUrl = .ok u ∧
    r.uri.origin = u.origin ∧ r.uri.target.toList =
      if '#' ∈ e.baseUrl.toList then u.target.toList
      else u.target.toList ++ '/' :: Uri.beforeFragment a.toList := by
  obtain ⟨huri, -⟩ := request_ok h
  have hsuffix : "/api/orders".toList <:+ e.ordersUrl.toList := by
    rw [ordersUrl, String.toList_append]
    exact List.suffix_append _ _
  have hmem : '#' ∈ e.ordersUrl.toList ↔ '#' ∈ e.baseUrl.toList := by
    rw [ordersUrl, String.toList_append, List.mem_append, or_iff_left (by decide)]
  rw [url, String.append_assoc] at huri
  obtain ⟨u, hu, -⟩ := Uri.parse_append hsuffix huri
  obtain ⟨horigin, htarget⟩ := Uri.parse_append_target hsuffix hu huri
  refine ⟨u, hu, horigin, ?_⟩
  have hslash : Uri.beforeFragment ("/" ++ a).toList = '/' :: Uri.beforeFragment a.toList := by
    rw [String.toList_append]
    rfl
  rw [htarget, hslash]
  simp only [hmem]

theorem request_cancel_eq (h : e.request (.cancel a) = .ok r) :
    r = ⟨"DELETE", r.uri, [("userid", toString e.userId.toInt)], ""⟩ := by
  obtain ⟨uri, -, h⟩ := bind_eq_ok_iff.mp h
  cases h
  rfl

end Endpoint

/-- Two cancels have the same target just when their ids are the same up to a `#`, or the base URL has one; and then they
are one request. Ids without a `#` are never taken for one another. -/
theorem cancels_meet_iff (e : Endpoint) {a b : String} {r s : HttpRequest} (ha : e.request (.cancel a) = .ok r)
    (hb : e.request (.cancel b) = .ok s) :
    (r.uri.target = s.uri.target ↔
      '#' ∈ e.baseUrl.toList ∨ a.toList.takeWhile (· ≠ '#') = b.toList.takeWhile (· ≠ '#')) ∧
    (r.uri.target = s.uri.target ↔ r = s) ∧
    ('#' ∉ e.baseUrl.toList → '#' ∉ a.toList → '#' ∉ b.toList → a ≠ b → r.uri.target ≠ s.uri.target) := by
  obtain ⟨u, hu, hr, htr⟩ := Endpoint.cancel_target ha
  obtain ⟨v, hv, hs, hts⟩ := Endpoint.cancel_target hb
  obtain rfl := Except.ok.inj (hu.symm.trans hv)
  have hmeet : r.uri.target = s.uri.target ↔
      '#' ∈ e.baseUrl.toList ∨ Uri.beforeFragment a.toList = Uri.beforeFragment b.toList := by
    rw [← String.toList_inj, htr, hts]
    split
    · next h => exact iff_of_true rfl (.inl h)
    · next h => rw [or_iff_right h, List.append_cancel_left_eq, List.cons.injEq, and_iff_right rfl]
  refine ⟨hmeet, ⟨?_, fun h => congrArg (·.uri.target) h⟩, ?_⟩
  · intro htarget
    have huri : r.uri = s.uri := by
      rw [Uri.mk.injEq]
      exact ⟨hr.trans hs.symm, htarget⟩
    rw [Endpoint.request_cancel_eq ha, Endpoint.request_cancel_eq hb, huri]
  · intro hbase hna hnb hne htarget
    have hsame := (hmeet.mp htarget).resolve_left hbase
    rw [Uri.beforeFragment_eq_self hna, Uri.beforeFragment_eq_self hnb] at hsame
    exact hne (String.toList_inj.mp hsame)

/-- Ids that differ in a query, and a base URL that has one. -/
theorem cancels_meet_iff_with_queries :
    let e := Endpoint.opening "http://localhost:8081?q" 1
    ∃ r s, e.request (.cancel "7?x=1") = .ok r ∧ e.request (.cancel "7?x=%31") = .ok s ∧
      r.line = "DELETE /?q/api/orders/7?x=1 HTTP/1.1" ∧ r.uri.target ≠ s.uri.target := by
  intro e
  let r : HttpRequest := ⟨"DELETE", ⟨some ("http", "localhost:8081"), "/?q/api/orders/7?x=1"⟩, [("userid", "1")], ""⟩
  let s : HttpRequest := ⟨"DELETE", ⟨some ("http", "localhost:8081"), "/?q/api/orders/7?x=%31"⟩, [("userid", "1")], ""⟩
  have hr : e.request (.cancel "7?x=1") = .ok r := by decide +kernel
  have hs : e.request (.cancel "7?x=%31") = .ok s := by decide +kernel
  obtain ⟨-, -, hne⟩ := cancels_meet_iff e hr hs
  exact ⟨r, s, hr, hs, by decide, hne (by decide) (by decide) (by decide) (by decide)⟩

/-- Different ids are cancelled through one request: one of them is the other and a fragment, or the base URL has a
fragment. -/
theorem cancels_meet_at_fragment :
    let e := Endpoint.opening "http://localhost:8081" 1
    let f := Endpoint.opening "http://localhost:8081#" 1
    ("7" ≠ "" ∧ "7#é" ≠ "" ∧ "7" ≠ "7#é" ∧ ∃ r s, e.request (.cancel "7") = .ok r ∧ e.request (.cancel "7#é") = .ok s ∧
      r.uri.target = "/api/orders/7" ∧ s.uri.target = "/api/orders/7") ∧
    "8" ≠ "" ∧ "7" ≠ "8" ∧ ∃ r s, f.request (.cancel "7") = .ok r ∧ f.request (.cancel "8") = .ok s ∧
      r.uri.target = "/" ∧ s.uri.target = "/" := by
  intro e f
  let r (target : String) : HttpRequest := ⟨"DELETE", ⟨some ("http", "localhost:8081"), target⟩, [("userid", "1")], ""⟩
  refine ⟨⟨by decide, by decide, by decide, r "/api/orders/7", r "/api/orders/7", ?_, ?_, rfl, rfl⟩, by decide, by decide,
    r "/", r "/", ?_, ?_, rfl, rfl⟩ <;> decide +kernel

end OrderBench
