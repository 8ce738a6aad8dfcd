import Cohort.Catalog.Basic

/-!
# The bundled catalog

The fields that are known where no other catalog is given.  A column of the
table of contacts has the name of its field; so has the path in the search
index, where a field is indexed.
-/

namespace Cohort.Catalog

namespace Bundled

/-- A field that is not indexed for search, and without a closed set of values. -/
def field (key label : String) (category : Category) (shape : Shape) (operators : List Operator)
    (description : String) : Field where
  key := .text key
  label := .text label
  category := category
  shape := shape
  operators := operators
  column := .text key
  searchPath := .null
  choices := none
  description := .text description

def indexed (f : Field) : Field := { f with searchPath := f.key }

def choosing (choices : List String) (f : Field) : Field :=
  { f with choices := some (choices.map .text) }

end Bundled

open Bundled in
/-- The catalog that is used where no other one is given. -/
def bundled : Catalog where
  version := .int 3
  fields := [
    indexed (field "intent.topics" "Intent Topics" .intent .textList
      [.matchAny, .isIn, .notIn]
      "Topics the contact has shown interest in"),
    indexed (field "intent.score" "Intent Score" .intent .number
      [.gte, .lte, .between]
      "Overall intent score (0-100)"),
    field "date.event_date" "Event Date" .date .dateRange
      [.between, .gte, .lte]
      "Date range for events or activities",
    field "date.days_back" "Days Back" .date .number
      [.eq, .gte, .lte, .between]
      "Number of days to look back",
    choosing ["cxo", "vp", "director", "manager", "staff"]
      (field "business.seniority" "Seniority" .business .choiceList
      [.isIn, .notIn]
      "Job seniority level"),
    choosing ["administrative", "engineering", "executive", "finance", "marketing", "sales"]
      (field "business.department" "Department" .business .choiceList
      [.isIn, .notIn]
      "Department or functional area"),
    field "business.employee_count" "Employee Count" .business .numberRange
      [.between, .gte, .lte]
      "Company size by employee count",
    field "business.revenue" "Revenue" .business .numberRange
      [.between, .gte, .lte]
      "Company annual revenue",
    choosing ["software", "healthcare", "finance", "retail", "manufacturing", "education",
        "real_estate", "consulting", "media", "telecommunications", "transportation",
        "energy", "government", "non_profit", "other"]
      (field "business.industry" "Industry" .business .choiceList
      [.isIn, .notIn]
      "Primary industry sector"),
    indexed (field "business.company_name" "Company Name" .business .text
      [.eq, .contains, .containsAnyCase, .startsWith, .endsWith]
      "Company or organization name"),
    indexed (field "business.job_title" "Job Title" .business .text
      [.eq, .contains, .containsAnyCase, .startsWith, .endsWith]
      "Professional job title"),
    field "financial.estimated_income" "Estimated Income" .financial .numberRange
      [.between, .gte, .lte]
      "Estimated annual household income",
    field "financial.credit_score" "Credit Score" .financial .numberRange
      [.between, .gte, .lte]
      "Credit score range",
    field "financial.investment_assets" "Investment Assets" .financial .numberRange
      [.between, .gte, .lte]
      "Total investment assets",
    field "personal.age" "Age" .personal .numberRange
      [.between, .gte, .lte]
      "Age range",
    choosing ["male", "female", "nonbinary", "unspecified"]
      (field "personal.gender" "Gender" .personal .choiceList
      [.isIn, .notIn]
      "Gender identity"),
    choosing ["high_school", "some_college", "bachelors", "masters", "doctorate"]
      (field "personal.education" "Education" .personal .choiceList
      [.isIn, .notIn]
      "Highest education level"),
    choosing ["single", "married", "divorced", "widowed"]
      (field "personal.marital_status" "Marital Status" .personal .choiceList
      [.isIn, .notIn]
      "Current marital status"),
    field "family.children_count" "Children Count" .family .numberRange
      [.between, .gte, .lte]
      "Number of children in household",
    field "family.household_size" "Household Size" .family .numberRange
      [.between, .gte, .lte]
      "Total household size",
    field "family.has_children" "Has Children" .family .truth
      [.isTrue, .isFalse]
      "Whether household has children",
    choosing ["own", "rent", "other"]
      (field "housing.ownership_status" "Home Ownership" .housing .choiceList
      [.isIn, .notIn]
      "Home ownership status"),
    choosing ["single_family", "condo", "townhouse", "apartment", "mobile"]
      (field "housing.property_type" "Property Type" .housing .choiceList
      [.isIn, .notIn]
      "Type of residential property"),
    field "housing.home_value" "Home Value" .housing .numberRange
      [.between, .gte, .lte]
      "Estimated home value",
    field "location.country" "Country" .location .textList
      [.isIn, .notIn]
      "Country of residence (ISO 3166-1 alpha-2)",
    choosing ["AL", "AK", "AZ", "AR", "CA", "CO", "CT", "DE", "DC", "FL", "GA", "HI", "ID", "IL",
        "IN", "IA", "KS", "KY", "LA", "ME", "MD", "MA", "MI", "MN", "MS", "MO", "MT", "NE",
        "NV", "NH", "NJ", "NM", "NY", "NC", "ND", "OH", "OK", "OR", "PA", "RI", "SC", "SD",
        "TN", "TX", "UT", "VT", "VA", "WA", "WV", "WI", "WY"]
      (field "location.region" "State/Region" .location .choiceList
      [.isIn, .notIn]
      "State or region"),
    field "location.city" "City" .location .textList
      [.isIn, .notIn]
      "City or cities",
    field "location.zip_code" "ZIP Code" .location .textList
      [.isIn, .notIn]
      "ZIP or postal codes",
    field "location.geo_radius_km" "Geo Radius" .location .geoRadius
      [.withinRadius]
      "Geographic radius search",
    field "contact.has_email" "Has Email" .contact .truth
      [.isTrue, .isFalse, .eq]
      "Whether contact has email address",
    field "contact.has_phone" "Has Phone" .contact .truth
      [.isTrue, .isFalse, .eq]
      "Whether contact has phone number",
    field "contact.has_linkedin" "Has LinkedIn" .contact .truth
      [.isTrue, .isFalse, .eq]
      "Whether contact has LinkedIn profile",
    field "contact.has_facebook" "Has Facebook" .contact .truth
      [.isTrue, .isFalse, .eq]
      "Whether contact has Facebook profile",
    field "contact.has_twitter" "Has Twitter" .contact .truth
      [.isTrue, .isFalse, .eq]
      "Whether contact has Twitter profile"]

end Cohort.Catalog
