import SplitTest.Experiment.Repository

/-
  Seeding: sample experiments for a store, so that there is something to serve.
  Experiments that are there already are left alone.
-/

namespace SplitTest.Seed

open Program

/-- A variant whose configuration holds the given values. -/
def variant (id name : String) (traffic : Percentage) (config : Table ConfigValue) : Variant :=
  ⟨id, name, traffic, .ofList config⟩

/-- An experiment as it is written down here: active, with timestamps still to be set. -/
def experiment (id name page : String) (variants : List Variant) : Experiment :=
  ⟨id, name, page, true, variants, .utc 0, .utc 0⟩

/-- The experiments of the landing page. -/
def landing : List Experiment :=
  [experiment "hero-button-color-test" "Hero Button Color Test" "landing"
     [variant "control" "Blue Button (Control)" 50
        [("buttonColor", .text "#007bff"), ("buttonText", .text "Get Started")],
      variant "variant_a" "Green Button" 50
        [("buttonColor", .text "#28a745"), ("buttonText", .text "Get Started")]],
   experiment "hero-headline-test" "Hero Headline Test" "landing"
     [variant "control" "Create Your Author Page (Control)" 33
        [("headline", .text "Create Your Author Page"),
         ("subheadline", .text "Share your stories with the world")],
      variant "variant_a" "Build Your Author Brand" 33
        [("headline", .text "Build Your Author Brand"),
         ("subheadline", .text "Connect with readers everywhere")],
      variant "variant_b" "Start Your Author Journey" 34
        [("headline", .text "Start Your Author Journey"),
         ("subheadline", .text "Showcase your books and engage readers")]]]

/-- The experiments of the pricing page. -/
def pricing : List Experiment :=
  [experiment "pricing-card-design-test" "Pricing Card Design Test" "pricing"
     [variant "control" "Traditional Card (Control)" 50
        [("cardStyle", .text "traditional"), ("showBadge", .flag false),
         ("highlightColor", .text "#007bff")],
      variant "variant_a" "Modern Card with Badge" 50
        [("cardStyle", .text "modern"), ("showBadge", .flag true),
         ("highlightColor", .text "#28a745"), ("badgeText", .text "Most Popular")]],
   experiment "pricing-cta-button-test" "Pricing CTA Button Text Test" "pricing"
     [variant "control" "Subscribe Now (Control)" 40 [("buttonText", .text "Subscribe Now")],
      variant "variant_a" "Start Free Trial" 30 [("buttonText", .text "Start Free Trial")],
      variant "variant_b" "Get Started Today" 30 [("buttonText", .text "Get Started Today")]]]

/-- Creates the experiments of a list that are not there yet; the answer is their number. -/
def seed (keys : Keys) : List Experiment → StoreProgram Nat
  | [] => pure 0
  | e :: es => do
    let result ← (Experiments.create keys (some e)).attempt
    match result with
    | .ok _ => do
      say s!"  [ok] created: {e.name}"
      let created ← seed keys es
      pure (created + 1)
    | .error (.conflict id page) => do
      say s!"  [skip] {e.name}: {(Error.conflict id page).message}"
      seed keys es
    | .error other => .fail other

/-- Seeds both pages. -/
def seedAll (keys : Keys) : StoreProgram Unit := do
  say "Seeding landing page experiments..."
  let _ ← seed keys landing
  say "Seeding pricing page experiments..."
  let _ ← seed keys pricing
  say "[seed] done"

end SplitTest.Seed
