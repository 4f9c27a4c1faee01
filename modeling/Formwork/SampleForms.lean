/-!
Forms to start from: contact data, an application for a job, and a survey.
-/

namespace Formwork.SampleForms

def contact : List String := [
  "form: contact-form", "title: Contact Information", "description: Please fill in your details below",
  "submitLabel: Submit Contact", "fields:", "  - id: firstName", "    type: text",
  "    label: First Name", "    placeholder: Enter your first name", "    required: true",
  "    validation:", "      minLength: 2", "    icon: user", "  - id: lastName", "    type: text",
  "    label: Last Name", "    placeholder: Enter your last name", "    required: true",
  "    validation:", "      minLength: 2", "    icon: user", "  - id: email", "    type: email",
  "    label: Email", "    placeholder: Enter your email address", "    required: true",
  "    icon: mail"]

def jobApplication : List String := [
  "form: job-application", "title: Job Application Form", "description: Apply for your dream position",
  "submitLabel: Submit Application", "fields:", "  - id: fullName", "    type: text",
  "    label: Full Name", "    placeholder: Enter your full name", "    required: true",
  "    validation:", "      minLength: 2", "    icon: user", "  - id: email", "    type: email",
  "    label: Email Address", "    placeholder: your.email@example.com", "    required: true",
  "    icon: mail", "  - id: phone", "    type: text", "    label: Phone Number",
  "    placeholder: +1 (555) 123-4567", "    required: true", "    validation:",
  "      pattern: \"^[+]?[1-9]?[0-9]\x7b7,15\x7d$\"", "  - id: position", "    type: select",
  "    label: Position Applied For", "    placeholder: Select a position", "    required: true",
  "    options:", "      - value: frontend", "        label: Frontend Developer",
  "      - value: backend", "        label: Backend Developer", "      - value: fullstack",
  "        label: Full Stack Developer", "      - value: designer", "        label: UI/UX Designer",
  "      - value: manager", "        label: Project Manager", "  - id: experience", "    type: number",
  "    label: Years of Experience", "    placeholder: Enter years of experience", "    required: true",
  "    validation:", "      min: 0", "      max: 50", "    icon: hash", "  - id: startDate",
  "    type: date", "    label: Available Start Date", "    placeholder: Select your availability",
  "    required: true", "    icon: calendar", "  - id: coverLetter", "    type: textarea",
  "    label: Cover Letter", "    placeholder: Tell us why you're perfect for this role...",
  "    required: true", "    validation:", "      minLength: 50", "      maxLength: 1000",
  "    icon: message", "  - id: terms", "    type: checkbox", "    label: Terms and Conditions",
  "    placeholder: I agree to the terms and conditions", "    required: true"]

def survey : List String := [
  "form: survey-form", "title: Customer Survey", "description: Help us improve our services",
  "submitLabel: Submit Survey", "advisoryValidation:", "  enabled: true", "fields:", "  - id: name",
  "    type: text", "    label: Full Name", "    placeholder: Enter your full name",
  "    required: true", "    validation:", "      minLength: 2", "    icon: user", "  - id: email",
  "    type: email", "    label: Email Address", "    placeholder: your.email@example.com",
  "    required: true", "    icon: mail", "  - id: age", "    type: number", "    label: Age",
  "    placeholder: Enter your age", "    validation:", "      min: 13", "      max: 120",
  "    icon: hash", "  - id: experience", "    type: select", "    label: Experience Level",
  "    placeholder: Select your experience", "    required: true", "    options:",
  "      - value: beginner", "        label: Beginner", "      - value: intermediate",
  "        label: Intermediate", "      - value: advanced", "        label: Advanced",
  "      - value: expert", "        label: Expert", "  - id: birthDate", "    type: date",
  "    label: Date of Birth", "    placeholder: Select your birth date", "    icon: calendar",
  "  - id: feedback", "    type: textarea", "    label: Feedback",
  "    placeholder: Share your thoughts and suggestions...", "    validation:", "      maxLength: 500",
  "    icon: message", "  - id: newsletter", "    type: checkbox", "    label: Newsletter Subscription",
  "    placeholder: I would like to receive newsletter updates"]

/-- The files, by name. -/
def files : List (String × String) :=
  [("contact.yaml", contact), ("job_application.yaml", jobApplication), ("survey.yaml", survey)].map
    fun e => (e.1, String.join (e.2.map (· ++ "\n")))

end Formwork.SampleForms
