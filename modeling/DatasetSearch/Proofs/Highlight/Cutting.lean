import DatasetSearch.Proofs.Highlight.Shown
import Mathlib.Data.List.Chain

/-! # How a text is cut

`Fragment.IsCut` says what the pieces of a text are: they lie side by side from its beginning to its
end and share out its tokens in order; each piece after the first begins with its first token; all
tokens of a piece but the first stop within the fragment size, and the token that the next piece
begins with would not have.  Cutting gives such pieces whatever the tokens are (`isCut_cutFrom`),
and there are no others (`IsCut.unique`).  In a text the tokens have boundaries at both ends, so the
pieces put together are the text (`Terms.pieces_partition`). -/

namespace DatasetSearch

open Text

attribute [ext] Fragment

namespace Fragment

/-- A fragment comes right after another one: it begins where that one stops and where its own first
token begins, and this token would have made the other one longer than `size`. -/
def Follows (size : Nat) (f g : Fragment) : Prop :=
  f.stop = g.start ∧ ∃ m, g.tokens.head? = some m ∧ m.token.start = g.start ∧
    f.start + size < m.token.stop

/-- The fragments are the pieces, as long as they can be, of a text from byte `first` up to byte
`last` with the tokens `ms`. -/
structure IsCut (size first last : Nat) (ms : List MarkedToken) (fs : List Fragment) : Prop where
  starts : fs.head?.map start = some first
  stops : fs.getLast?.map stop = some last
  follow : fs.IsChain (Follows size)
  tokens_eq : fs.flatMap tokens = ms
  hasToken : ms ≠ [] → ∀ f ∈ fs, f.tokens ≠ []
  fits : ∀ f ∈ fs, ∀ m ∈ f.tokens.tail, m.token.stop ≤ f.start + size

namespace IsCut

variable {size first last : Nat} {m : MarkedToken} {ms : List MarkedToken} {f f' g : Fragment}
  {fs fs' : List Fragment} {text : Text}

/-- The first piece begins with the first token. -/
theorem exists_cons (h : IsCut size first last (m :: ms) fs) :
    ∃ f rest, fs = f :: rest ∧ f.start = first ∧ f.tokens.head? = some m := by
  cases fs with
  | nil => cases h.starts
  | cons f rest =>
      refine ⟨f, rest, rfl, Option.some.inj h.starts, ?_⟩
      obtain ⟨m', more, hmore⟩ :=
        List.exists_cons_of_ne_nil (h.hasToken (by simp) f (List.mem_cons_self ..))
      have htokens := h.tokens_eq
      rw [List.flatMap_cons, hmore, List.cons_append, List.cons.injEq] at htokens
      rw [hmore, List.head?_cons, htokens.1]

/-- The pieces after the first are those of the rest of the text. -/
theorem tail (h : IsCut size first last ms (f :: g :: fs)) :
    IsCut size g.start last ((g :: fs).flatMap tokens) (g :: fs) := by
  have hne : (g :: fs).flatMap tokens ≠ [] → ms ≠ [] := by
    intro hrest hnil
    have htokens := h.tokens_eq
    rw [hnil, List.flatMap_cons, List.append_eq_nil_iff] at htokens
    exact hrest htokens.2
  exact {
    starts := rfl
    stops := by simpa using h.stops
    follow := (List.isChain_cons.1 h.follow).2
    tokens_eq := rfl
    hasToken := fun hrest f' hf' => h.hasToken (hne hrest) f' (List.mem_cons_of_mem f hf')
    fits := fun f' hf' => h.fits f' (List.mem_cons_of_mem f hf') }

/-! ### There is only one way to cut -/

/-- A first piece has no fewer tokens than another one. -/
theorem tokens_eq_of_isPrefix (h : IsCut size first last ms (f :: fs))
    (h' : IsCut size first last ms (f' :: fs')) (hbegins : f.tokens <+: f'.tokens) :
    f.tokens = f'.tokens := by
  obtain ⟨more, hmore⟩ := hbegins
  cases more with
  | nil => rw [← hmore, List.append_nil]
  | cons m more =>
      exfalso
      have hrest : fs.flatMap tokens = m :: (more ++ fs'.flatMap tokens) := by
        have htokens := h.tokens_eq.trans h'.tokens_eq.symm
        rw [List.flatMap_cons, List.flatMap_cons, ← hmore, List.append_assoc] at htokens
        exact List.append_cancel_left htokens
      have hne : ms ≠ [] := by
        intro hnil
        have htokens := h.tokens_eq
        rw [hnil, List.flatMap_cons, hrest] at htokens
        simp at htokens
      -- the token `m` begins the second piece on one side and stands within the first on the other
      cases fs with
      | nil => cases hrest
      | cons g fs =>
          have htail := h.tail
          rw [hrest] at htail
          obtain ⟨_, _, hcons, -, hhead⟩ := htail.exists_cons
          obtain ⟨rfl, -⟩ := List.cons.inj hcons
          obtain ⟨-, m', hm', -, hlong⟩ := (List.isChain_cons_cons.1 h.follow).1
          rw [hhead, Option.some.injEq] at hm'
          subst hm'
          have hinside : m ∈ f'.tokens.tail := by
            rw [← hmore, List.tail_append_of_ne_nil (h.hasToken hne f (List.mem_cons_self ..))]
            simp
          have hshort := h'.fits f' (List.mem_cons_self ..) m hinside
          have hstart : f.start = first := Option.some.inj h.starts
          have hstart' : f'.start = first := Option.some.inj h'.starts
          omega

theorem tokens_eq_tokens (h : IsCut size first last ms (f :: fs))
    (h' : IsCut size first last ms (f' :: fs')) : f.tokens = f'.tokens := by
  have hfront : f.tokens <+: ms := ⟨_, h.tokens_eq⟩
  have hfront' : f'.tokens <+: ms := ⟨_, h'.tokens_eq⟩
  rcases List.prefix_or_prefix_of_prefix hfront hfront' with hbegins | hbegins
  · exact h.tokens_eq_of_isPrefix h' hbegins
  · exact (h'.tokens_eq_of_isPrefix h hbegins).symm

/-- A second piece has a token. -/
theorem eq_nil_of_flatMap_eq_nil (h : IsCut size first last ms (f :: fs))
    (hnil : fs.flatMap tokens = []) : fs = [] := by
  cases fs with
  | nil => rfl
  | cons g fs =>
      obtain ⟨-, m, hm, -⟩ := (List.isChain_cons_cons.1 h.follow).1
      rw [List.flatMap_cons, List.append_eq_nil_iff] at hnil
      simp [hnil.1] at hm

/-- The first piece stops where the first token that is not in it begins. -/
theorem stop_eq (h : IsCut size first last ms (f :: fs)) :
    f.stop = ((fs.flatMap tokens).head?.map fun m => m.token.start).getD last := by
  cases fs with
  | nil => exact Option.some.inj h.stops
  | cons g fs =>
      obtain ⟨hstop, m, hm, hbegin, -⟩ := (List.isChain_cons_cons.1 h.follow).1
      obtain ⟨more, hmore⟩ := List.head?_eq_some_iff.1 hm
      simp [hmore, hbegin, hstop]

/-- There is only one way to cut. -/
theorem unique (h : IsCut size first last ms fs) (h' : IsCut size first last ms fs') :
    fs = fs' := by
  induction fs generalizing first ms fs' with
  | nil => cases h.starts
  | cons f fs ih =>
      cases fs' with
      | nil => cases h'.starts
      | cons f' fs' =>
          have htokens := h.tokens_eq_tokens h'
          have hrest : fs.flatMap tokens = fs'.flatMap tokens := by
            have hall := h.tokens_eq.trans h'.tokens_eq.symm
            rw [List.flatMap_cons, List.flatMap_cons, htokens] at hall
            exact List.append_cancel_left hall
          have hstart : f.start = f'.start := Option.some.inj (h.starts.trans h'.starts.symm)
          have hstop : f.stop = f'.stop := by rw [h.stop_eq, h'.stop_eq, hrest]
          obtain rfl : f = f' := Fragment.ext hstart hstop htokens
          cases fs with
          | nil => rw [h'.eq_nil_of_flatMap_eq_nil hrest.symm]
          | cons g fs =>
              cases fs' with
              | nil => exact absurd (h.eq_nil_of_flatMap_eq_nil hrest) (List.cons_ne_nil g fs)
              | cons g' fs' =>
                  have hnext := (List.isChain_cons_cons.1 h.follow).1.1
                  have hnext' := (List.isChain_cons_cons.1 h'.follow).1.1
                  have htail' := h'.tail
                  rw [← hrest, ← hnext', hnext] at htail'
                  rw [ih h.tail htail']

/-! ### The pieces are the text -/

/-- If places of a text have boundaries, the pieces between them are the text between. -/
theorem flatMap_slice (h : IsCut size first last ms fs)
    (hplaces : ∀ f ∈ fs, text.isBoundary f.start = true ∧ text.isBoundary f.stop = true ∧
      f.start ≤ f.stop ∧ f.stop ≤ last) :
    fs.flatMap (fun f => slice f.start f.stop text) = slice first last text := by
  induction fs generalizing first ms with
  | nil => cases h.starts
  | cons f fs ih =>
      obtain rfl : f.start = first := Option.some.inj h.starts
      cases fs with
      | nil =>
          obtain rfl : f.stop = last := Option.some.inj h.stops
          rw [List.flatMap_singleton]
      | cons g fs =>
          have hnext : f.stop = g.start := (List.isChain_cons_cons.1 h.follow).1.1
          obtain ⟨hstart, hstop, hle, hlast⟩ := hplaces f (List.mem_cons_self ..)
          have hrest := ih h.tail fun f' hf' => hplaces f' (List.mem_cons_of_mem f hf')
          rw [List.flatMap_cons, hrest, ← hnext]
          exact slice_append_slice hstart hstop hle hlast

end IsCut

/-! ### Cutting -/

variable {size first last : Nat} {m : MarkedToken} {current ms : List MarkedToken}
  {f : Fragment} {fs : List Fragment}

/-- A piece that is cut off comes before the pieces of the rest. -/
theorem IsCut.cons (h : IsCut size f.stop last (m :: ms) fs) (hm : m.token.start = f.stop)
    (hlong : f.start + size < m.token.stop) (hne : f.tokens ≠ [])
    (hfits : ∀ m ∈ f.tokens.tail, m.token.stop ≤ f.start + size) :
    IsCut size f.start last (f.tokens ++ m :: ms) (f :: fs) := by
  obtain ⟨g, rest, rfl, hstart, hhead⟩ := h.exists_cons
  have hfollows : Follows size f g := ⟨hstart.symm, m, hhead, hm.trans hstart.symm, hlong⟩
  exact {
    starts := rfl
    stops := by simpa using h.stops
    follow := List.isChain_cons_cons.2 ⟨hfollows, h.follow⟩
    tokens_eq := by rw [List.flatMap_cons, h.tokens_eq]
    hasToken := fun _ => List.forall_mem_cons.2 ⟨hne, h.hasToken (List.cons_ne_nil m ms)⟩
    fits := List.forall_mem_cons.2 ⟨hfits, h.fits⟩ }

/-- Cutting gives pieces whatever the tokens are, if those that the first piece has already fit. -/
theorem isCut_cutFrom (size last first : Nat) (current ms : List MarkedToken)
    (hfits : ∀ m ∈ current.tail, m.token.stop ≤ first + size) :
    IsCut size first last (current ++ ms) (cutFrom size last first current ms) := by
  fun_induction cutFrom size last first current ms with
  | case1 first current =>
      exact {
        starts := rfl
        stops := rfl
        follow := List.isChain_singleton _
        tokens_eq := by simp
        hasToken := by simp
        fits := by simpa using hfits }
  | case2 first current m ms hfull ih =>
      have hrest := ih (by simp)
      exact IsCut.cons (f := ⟨first, m.token.start, current⟩) hrest rfl hfull.1 hfull.2 hfits
  | case3 first current m ms hroom ih =>
      have hlonger : ∀ x ∈ (current ++ [m]).tail, x.token.stop ≤ first + size := by
        intro x hx
        cases current with
        | nil => simp at hx
        | cons c cs =>
            rw [List.cons_append, List.tail_cons, List.mem_append, List.mem_singleton] at hx
            rcases hx with hx | rfl
            · exact hfits x hx
            · by_contra hlong
              exact hroom ⟨by omega, List.cons_ne_nil c cs⟩
      have hrest := ih hlonger
      rwa [List.append_assoc] at hrest

end Fragment

namespace Terms

open Fragment

/-- The pieces of a text are the one way to cut it by its tokens, and put together they are the
text. -/
theorem pieces_partition (t : Terms) (size : Nat) (text : Text) :
    (∀ fs, IsCut size 0 text.utf8Size (t.markTokens text.tokens) fs ↔ fs = t.pieces size text) ∧
      (t.pieces size text).flatMap (fun f => slice f.start f.stop text) = text := by
  have hcut : IsCut size 0 text.utf8Size (t.markTokens text.tokens) (t.pieces size text) :=
    isCut_cutFrom size text.utf8Size 0 [] (t.markTokens text.tokens) (by simp)
  constructor
  · intro fs
    constructor
    · intro h
      exact h.unique hcut
    · rintro rfl
      exact hcut
  · have hlaid := laid_cut size (placed_markTokens t text)
    have hwhole : slice 0 text.utf8Size text = text := by
      simpa using slice_append [] text []
    rw [hcut.flatMap_slice, hwhole]
    intro f hf
    have hbounds := hlaid.bounds hf
    obtain ⟨-, -, hstart, hstop⟩ := render_eq (hlaid.sublist (List.singleton_sublist.2 hf))
    exact ⟨hstart, hstop, hbounds.2.1, by omega⟩

end Terms

end DatasetSearch
