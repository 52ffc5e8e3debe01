import Insta.L2Model.Cascade
import Insta.L4App.System

/-!
# The like button

Four pages render a like form for a post, as a `DELETE` of the user's like
when there is one and as a `POST` otherwise. A click is handled twice: by
`post_likes.js`, which writes a new count and label at once, and by the
server, which gets the form. The script takes a post for liked when the id of
the clicked label is `liked`; what that id is differs from page to page.

A run is a sequence of clicks by one signed-in user, each on a page as the
server renders it at that time.

* `click_agrees_iff`: what the script wrote is what the server has after the
  click exactly when the user had not liked the post, or had liked it once
  and the page gives the label that id.
* `toggle_agrees_iff`: the same for runs.
-/
namespace Insta.Web

open Insta.Core Insta.Store Insta.Store.App Insta.Model Insta.Service

/-! ## The pages -/

inductive LikePage
  | dashboard | postsShow | usersShow | profilesShow
  deriving DecidableEq, Repr

/-- The text of the label. -/
inductive LikeText
  | like | liked
  deriving DecidableEq, Repr

/-- `post.likes.where(user:).exists?` -/
def likedBy (db : Db) (me post : Nat) : Bool := db.likes.rows.any fun l => l.postId == post && l.userId == me

/-- `post.likes.find_by(user:)` -/
def likeOf (db : Db) (me post : Nat) : Option LikeRow := db.likes.first fun l => l.postId == post && l.userId == me

/-- The id of the label; the profile page gives it none.
mirrors app/views/users/dashboard.html.erb:90,97, app/views/posts/show.html.erb:66,73,
app/views/users/show.html.erb:91,98, app/views/profiles/show.html.erb:101,108 -/
def labelId (page : LikePage) (liked : Bool) (post : Nat) : String :=
  match page with
  | .dashboard => if liked then "liked" ++ toString post else "like" ++ toString post
  | .postsShow | .usersShow => if liked then "liked" else "like"
  | .profilesShow => ""

/-- The request the form makes.
mirrors app/views/users/dashboard.html.erb:87-102 -/
def likeForm (db : Db) (me post : Nat) : Request :=
  match likeOf db me post with
  | some l => .likesDestroy l.id
  | none => .likesCreate post me

/-- What the script writes, from the id of the label and the count on the
page.
mirrors app/javascript/post_likes.js:11-29 -/
def clickHandler (id : String) (count : Int) : Int × LikeText :=
  if id = "liked" then (count - 1, .like) else (count + 1, .liked)

/-! ## Clicks -/

structure Click where
  page : LikePage
  post : Nat
  deriving DecidableEq, Repr

/-- The server, and what the last click wrote on its page. -/
structure Toggled where
  world : World
  written : Option (Nat × Int × LikeText) := none

/-- A click of user `me`, on a post that is there to be rendered. -/
def clickStep (lib : Lib) (me : Nat) (s : Toggled) (c : Click) : Option Toggled :=
  if (s.world.db.users.find me).isSome && (s.world.db.posts.find c.post).isSome then
    some
      { world := serve lib s.world ⟨some me, likeForm s.world.db me c.post, []⟩
        written := some (c.post, clickHandler (labelId c.page (likedBy s.world.db me c.post) c.post)
          (likesOf s.world.db.likes c.post)) }
  else none

def toggleSystem (lib : Lib) (me : Nat) : LTS Toggled Click :=
  LTS.ofFn (fun s => s.written = none) (clickStep lib me)

/-- The label the server would render. -/
def serverText (db : Db) (me post : Nat) : LikeText := if likedBy db me post then .liked else .like

/-- The page shows what the server has. -/
def Agrees (me : Nat) (s : Toggled) : Prop :=
  ∀ post count text, s.written = some (post, count, text) →
    count = likesOf s.world.db.likes post ∧ text = serverText s.world.db me post

/-- The likes of `me` for a post. -/
def likesBy (db : Db) (me post : Nat) : Nat := db.likes.rows.countP fun l => l.postId == post && l.userId == me

/-- The pages whose label of a liked post has the id the script asks for. -/
def LikePage.marks : LikePage → Bool
  | .postsShow | .usersShow => true
  | .dashboard | .profilesShow => false

/-- The user has not liked the post, or once and the page says so. -/
def Toggles (me : Nat) (s : Toggled) (c : Click) : Prop :=
  likesBy s.world.db me c.post = 0 ∨ likesBy s.world.db me c.post = 1 ∧ c.page.marks = true

/-! ## The script -/

theorem any_isDigit_toString (n : Nat) : (toString n).toList.any Char.isDigit = true := by
  have hdigits : (toString n).toList = Nat.toDigits 10 n := String.toList_ofList
  obtain ⟨c, hc⟩ := List.exists_mem_of_ne_nil _ (Nat.toDigits_ne_nil (n := n) (b := 10))
  exact List.any_eq_true.2 ⟨c, hdigits ▸ hc, Nat.isDigit_of_mem_toDigits (by decide) (by decide) hc⟩

/-- The script sees a liked post where the label has its id. -/
theorem labelId_eq_liked_iff (page : LikePage) (liked : Bool) (post : Nat) :
    labelId page liked post = "liked" ↔ page.marks = true ∧ liked = true := by
  have hdigit := any_isDigit_toString post
  have hliked : "liked" ++ toString post ≠ "liked" := fun h => by
    have hnone : toString post = "" := (String.append_right_inj "liked").1 h
    rw [hnone] at hdigit
    exact absurd hdigit (by decide)
  have hlike : "like" ++ toString post ≠ "liked" := fun h => by
    have hd : toString post = "d" := (String.append_right_inj "like").1 h
    rw [hd] at hdigit
    exact absurd hdigit (by decide)
  cases page with
  | dashboard =>
    cases liked with
    | false => exact iff_of_false hlike (by simp)
    | true => exact iff_of_false hliked (by simp [LikePage.marks])
  | postsShow | usersShow => cases liked <;> simp [labelId, LikePage.marks]
  | profilesShow => simp [labelId, LikePage.marks]

/-! ## The server -/

section Server

variable {lib : Lib} {w : World} {me post : Nat}

theorem likedBy_iff {db : Db} : likedBy db me post = true ↔ 0 < likesBy db me post := by
  unfold likedBy likesBy
  rw [List.any_eq_true, List.countP_pos_iff]

theorem serve_likesCreate (hme : (w.db.users.find me).isSome = true) (hpost : (w.db.posts.find post).isSome = true) :
    (serve lib w ⟨some me, .likesCreate post me, []⟩).db = createLike w.db post me := by
  obtain ⟨r, hr⟩ := Option.isSome_iff_exists.1 hme
  obtain ⟨p, hp⟩ := Option.isSome_iff_exists.1 hpost
  have hauth : (authenticate (some me)).run { w with script := [] } = (.ok r, { w with script := [] }) :=
    authenticate_of_user hr
  show ((likesCreate (some me) post me).run { w with script := [] }).2.db = _
  unfold likesCreate
  rw [Act.bind_of_ok hauth, Act.run_get_bind, hp]
  show createLike w.db p.id me = _
  rw [show p.id = post from (Table.mem_of_find hp).2]

theorem serve_likesDestroy {l : LikeRow} (hme : (w.db.users.find me).isSome = true) (hl : l ∈ w.db.likes.rows) :
    (serve lib w ⟨some me, .likesDestroy l.id, []⟩).db = destroyLike w.db l := by
  obtain ⟨r, hr⟩ := Option.isSome_iff_exists.1 hme
  have hauth : (authenticate (some me)).run { w with script := [] } = (.ok r, { w with script := [] }) :=
    authenticate_of_user hr
  have hfind : w.db.likes.find l.id = some l := Table.find_of_mem hl
  show ((likesDestroy (some me) l.id).run { w with script := [] }).2.db = _
  unfold likesDestroy
  rw [Act.bind_of_ok hauth, Act.run_get_bind, hfind]
  rfl

/-- A like of a user who has not liked the post is stored. -/
theorem createLike_of_new {db : Db} (hme : (db.users.find me).isSome = true)
    (hpost : (db.posts.find post).isSome = true) (hno : likesBy db me post = 0) :
    (createLike db post me).likes.rows = db.likes.rows ++ [⟨db.likes.nextId, me, post⟩] := by
  obtain ⟨t, ht⟩ := insert_of_no_index (fun _ _ => rfl) db.likes ⟨db.likes.nextId, me, post⟩
  have hnew : (db.likes.rows.any fun l => l.userId == me && l.postId == post) = false := by
    rw [List.any_eq_false]
    intro l hl
    simpa [Bool.and_comm] using List.countP_eq_zero.1 hno l hl
  unfold createLike
  rw [hme, hpost, hnew, ht]
  exact Table.rows_insert ht

/-- The form of a post that is not liked adds a like, that of a liked one
takes one away. -/
theorem serve_likeForm (lib : Lib) (hme : (w.db.users.find me).isSome = true)
    (hpost : (w.db.posts.find post).isSome = true) :
    (likesBy w.db me post = 0 ∧
      likesOf (serve lib w ⟨some me, likeForm w.db me post, []⟩).db.likes post = likesOf w.db.likes post + 1 ∧
      likesBy (serve lib w ⟨some me, likeForm w.db me post, []⟩).db me post = 1) ∨
    (likesOf (serve lib w ⟨some me, likeForm w.db me post, []⟩).db.likes post + 1 = likesOf w.db.likes post ∧
      likesBy (serve lib w ⟨some me, likeForm w.db me post, []⟩).db me post + 1 = likesBy w.db me post) := by
  unfold likeForm
  cases hl : likeOf w.db me post with
  | none =>
    have hno : likesBy w.db me post = 0 :=
      List.countP_eq_zero.2 fun l hl' => by simp [Table.first_eq_none_iff.1 hl l hl']
    refine .inl ⟨hno, ?_⟩
    rw [serve_likesCreate hme hpost]
    unfold likesBy at hno ⊢
    unfold likesOf
    rw [createLike_of_new hme hpost hno, List.countP_append, List.countP_append, hno]
    simp
  | some l =>
    obtain ⟨hm, hkey⟩ := Table.mem_of_first hl
    have hpost' : (l.postId == post) = true := (Bool.and_eq_true_iff.1 hkey).1
    right
    dsimp only
    rw [serve_likesDestroy hme hm]
    have hof := Table.countP_delete_row hm fun l => l.postId == post
    have hby := Table.countP_delete_row hm fun l => l.postId == post && l.userId == me
    rw [hpost', if_pos rfl] at hof
    rw [hkey, if_pos rfl] at hby
    exact ⟨hof.symm, hby.symm⟩

end Server

theorem agrees_iff {me post : Nat} {w : World} {x : Int × LikeText} :
    Agrees me ⟨w, some (post, x)⟩ ↔ x.1 = likesOf w.db.likes post ∧ x.2 = serverText w.db me post := by
  constructor
  · exact fun h => h post x.1 x.2 rfl
  · rintro h _ _ _ he
    cases he
    exact h

theorem serverText_eq (db : Db) (me post : Nat) :
    serverText db me post = if likesBy db me post = 0 then .like else .liked := by
  unfold serverText
  by_cases h : likesBy db me post = 0
  · rw [if_pos h, if_neg fun hl => (likedBy_iff.1 hl).ne' h]
  · rw [if_neg h, if_pos (likedBy_iff.2 (Nat.pos_of_ne_zero h))]

/-- One click. -/
theorem click_agrees_iff {lib : Lib} {me : Nat} {s s' : Toggled} {c : Click} (hs : clickStep lib me s c = some s') :
    Agrees me s' ↔ Toggles me s c := by
  unfold clickStep at hs
  rw [Option.ite_none_right_eq_some] at hs
  obtain ⟨hfound, rfl⟩ := hs.imp_right Option.some.inj
  obtain ⟨hme, hpost⟩ := Bool.and_eq_true_iff.1 hfound
  rw [agrees_iff, serverText_eq]
  unfold clickHandler Toggles
  rcases serve_likeForm lib hme hpost with ⟨hno, hof, hby⟩ | ⟨hof, hby⟩
  · -- not liked: the script counts up on every page
    have hnot : ¬ labelId c.page (likedBy s.world.db me c.post) c.post = "liked" := fun h => by
      have := likedBy_iff.1 ((labelId_eq_liked_iff _ _ _).1 h).2
      omega
    rw [if_neg hnot, hof, hby, hno]
    simp
  · -- liked: it counts down where the label has the id
    have hliked : likedBy s.world.db me c.post = true := likedBy_iff.2 (by omega)
    by_cases hmarks : c.page.marks = true
    · rw [if_pos ((labelId_eq_liked_iff _ _ _).2 ⟨hmarks, hliked⟩), ← hof, ← hby]
      simp [hmarks]
    · rw [if_neg fun h => hmarks ((labelId_eq_liked_iff _ _ _).1 h).1, ← hof, ← hby]
      refine iff_of_false (fun h => ?_) (by simp [hmarks])
      have hcount := h.1
      push_cast at hcount
      omega

theorem toggle_agrees_iff (lib : Lib) (me : Nat) (s₀ : Toggled) (h₀ : s₀.written = none) (cs : List Click)
    (s : Toggled) :
    (∀ a c b, (toggleSystem lib me).StepOf s₀ cs s a c b → Agrees me b) ↔
    (∀ a c b, (toggleSystem lib me).StepOf s₀ cs s a c b → Toggles me a c) :=
  LTS.run_keeps_iff (P := Agrees me) (fun _ _ _ _ hs => click_agrees_iff hs)
    (fun _ _ _ h => by rw [h₀] at h; cases h) s

/-! ## Bob has liked a post -/

def bobLikes : Toggled := { world := { neighbours with db := createLike neighbours.db 1 2 } }

def bobClicks (c : Click) : Toggled := (clickStep plainLib 2 bobLikes c).getD bobLikes

/-- On the page of the post Bob takes the like back. -/
theorem bob_unlikes :
    bobLikes.written = none ∧ (toggleSystem plainLib 2).Run bobLikes [⟨.postsShow, 1⟩] (bobClicks ⟨.postsShow, 1⟩) ∧
    ∀ a c b, (toggleSystem plainLib 2).StepOf bobLikes [⟨.postsShow, 1⟩] (bobClicks ⟨.postsShow, 1⟩) a c b →
      Agrees 2 b := by
  refine ⟨rfl, .cons rfl (.nil _), (toggle_agrees_iff plainLib 2 bobLikes rfl _ _).2 fun a c b h => ?_⟩
  rcases h.of_cons with ⟨rfl, rfl⟩ | ⟨s, -, l₁, l₂, hls, -⟩
  · exact .inr ⟨by decide, rfl⟩
  · simp at hls

/-- On the dashboard the script adds a second like where the server takes the
first one away. -/
theorem dashboard_counts_up :
    bobLikes.written = none ∧ (toggleSystem plainLib 2).Run bobLikes [⟨.dashboard, 1⟩] (bobClicks ⟨.dashboard, 1⟩) ∧
    (bobClicks ⟨.dashboard, 1⟩).written = some (1, 2, .liked) ∧
    likesOf (bobClicks ⟨.dashboard, 1⟩).world.db.likes 1 = 0 ∧
    serverText (bobClicks ⟨.dashboard, 1⟩).world.db 2 1 = .like ∧
    ¬ Agrees 2 (bobClicks ⟨.dashboard, 1⟩) := by
  have hwritten : (bobClicks ⟨.dashboard, 1⟩).written = some (1, 2, .liked) := by decide
  have hcount : likesOf (bobClicks ⟨.dashboard, 1⟩).world.db.likes 1 = 0 := by decide
  refine ⟨rfl, .cons rfl (.nil _), hwritten, hcount, by decide, fun h => ?_⟩
  have := (h 1 2 .liked hwritten).1
  omega

end Insta.Web
